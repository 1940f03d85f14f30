import RabbitJobQueue.Machine.Chain
import RabbitJobQueue.Proofs.PoolPrimitives

/-! # The loop of stopExecutors

The loop always comes back: each visit clears a link, so there are at most as many visits as links,
and one more. It calls `stop` on every executor the list leads to and on no other. Neither fact
needs the list to be in order.
-/

namespace RabbitJobQueue.Model.JobQueueExecutorPool

open Machine

variable {ε π : Type} {pool next : JobQueueExecutorPool ε π} {ref other : ExecutorRef}

/-- The executors that following `next` from the pool's head leads to. -/
def Reaches (pool : JobQueueExecutorPool ε π) (ref : ExecutorRef) : Prop :=
  Linked pool.nextOf pool.head ref

/-- One iteration of the loop, on the executor it visits. -/
def visited (executor : Executor) : Executor := { executor with prev := none, next := none }.stop

theorem visit_eq (pool : JobQueueExecutorPool ε π) (ref : ExecutorRef) :
    ((pool.setPrev ref none).setNext ref none).stopExecutor ref = pool.update ref visited := by
  simp only [stopExecutor, setNext, setPrev, update, List.modify_modify_eq]
  rfl

theorem nextOf_visit (pool : JobQueueExecutorPool ε π) (ref : ExecutorRef) :
    (pool.update ref visited).nextOf = fun a => if a = ref then none else pool.nextOf a := by
  funext a
  unfold nextOf
  by_cases here : a = ref
  · subst here
    rw [if_pos rfl, update_executors, List.getElem?_modify_eq]
    cases pool.executors[a]? <;> rfl
  · rw [if_neg here, update_executors, getElem?_modify_other (Ne.symm here)]

/-- What the loop may do to one executor: unlink and stop it if the list leads there, nothing else. -/
structure LoopEffect (linked : Prop) (before after : Executor) : Prop where
  subscribed : after.subscribed = before.subscribed
  signalled : after.signalled = before.signalled
  stopCalls_le : before.stopCalls ≤ after.stopCalls
  stopped : linked → 0 < after.stopCalls
  untouched : ¬ linked → after = before

theorem stopLoop_cons {fuel : ℕ} :
    (stopLoop (fuel + 1) (some ref)).exec pool =
      (stopLoop fuel (pool.nextOf ref)).exec (pool.update ref visited) := by
  rw [stopLoop]
  simp only [Effect.exec_get_bind, Effect.exec_modify_bind, visit_eq]

/-- An executor that has not been visited before loses a link by the visit. -/
theorem linkCount_visit (link : pool.nextOf ref = some other) :
    (pool.update ref visited).executors.countP (·.next.isSome) + 1 =
      pool.executors.countP (·.next.isSome) := by
  obtain ⟨executor, read, linked⟩ := Option.bind_eq_some_iff.mp link
  have count := countP_modify (fun executor : Executor => executor.next.isSome) visited read
  rw [linked] at count
  exact count

/-- The loop of `stopExecutors` terminates, whatever the list looks like. -/
theorem stopLoop_returns (fuel : ℕ) (head : Option ExecutorRef) (pool : JobQueueExecutorPool ε π)
    (enough : pool.executors.countP (·.next.isSome) < fuel) :
    ∃ next, (stopLoop fuel head).exec pool = some (.ok (), next) := by
  induction fuel generalizing head pool with
  | zero => exact absurd enough (Nat.not_lt_zero _)
  | succ fuel ih =>
    cases head with
    | none => exact ⟨pool, rfl⟩
    | some ref =>
      rw [stopLoop_cons]
      cases link : pool.nextOf ref with
      | none =>
        refine ⟨pool.update ref visited, ?_⟩
        rw [stopLoop]
        cases fuel <;> rfl
      | some tn =>
        have count := linkCount_visit link
        exact ih (some tn) _ (by omega)

/-- The loop stops exactly the executors it is linked to, and changes nothing else of the pool. -/
theorem stopLoop_spec {fuel : ℕ} {head : Option ExecutorRef} {result : Except Throwable Unit}
    (ran : (stopLoop fuel head).exec pool = some (result, next)) :
    result = .ok () ∧ next = { pool with executors := next.executors } ∧
      next.executors.length = pool.executors.length ∧
      ∀ ref after, next.executors[ref]? = some after → ∃ before,
        pool.executors[ref]? = some before ∧
          LoopEffect (Linked pool.nextOf head ref) before after := by
  induction fuel generalizing head pool with
  | zero =>
    cases head with
    | none =>
      cases ran
      exact ⟨rfl, rfl, rfl, fun ref after read => ⟨after, read, rfl, rfl, Nat.le_refl _,
        fun linked => absurd linked not_linked_none, fun _ => rfl⟩⟩
    | some first => cases ran
  | succ fuel ih =>
    cases head with
    | none =>
      cases ran
      exact ⟨rfl, rfl, rfl, fun ref after read => ⟨after, read, rfl, rfl, Nat.le_refl _,
        fun linked => absurd linked not_linked_none, fun _ => rfl⟩⟩
    | some first =>
      rw [stopLoop_cons] at ran
      obtain ⟨returned, frame, length, effect⟩ := ih ran
      refine ⟨returned, ?_, by rw [length, update_executors, List.length_modify], ?_⟩
      · rw [frame]
        rfl
      · intro ref after read
        obtain ⟨middle, readMiddle, later⟩ := effect ref after read
        obtain ⟨before, readBefore, same⟩ := getElem?_modify_eq_some.mp readMiddle
        refine ⟨before, readBefore, ?_⟩
        rw [nextOf_visit] at later
        by_cases here : first = ref
        · -- the visited executor: stopped now, and stopping again can only add to that
          subst here
          rw [if_pos rfl] at same
          subst same
          have once : 0 < (visited before).stopCalls := Nat.succ_pos _
          exact ⟨later.subscribed, later.signalled,
            Nat.le_trans (Nat.le_succ _) later.stopCalls_le,
            fun _ => Nat.lt_of_lt_of_le once later.stopCalls_le,
            fun unlinked => absurd Linked.head_self unlinked⟩
        · rw [if_neg here] at same
          subst same
          have forth : Linked pool.nextOf (some first) ref →
              Linked (fun a => if a = first then none else pool.nextOf a) (pool.nextOf first) ref :=
            fun linked => linked.advance_cleared (Ne.symm here)
          have back : Linked (fun a => if a = first then none else pool.nextOf a)
              (pool.nextOf first) ref → Linked pool.nextOf (some first) ref := by
            intro linked
            refine (linked.mono fun a b link => ?_).of_next
            split at link
            · contradiction
            · exact link
          exact ⟨later.subscribed, later.signalled, later.stopCalls_le,
            fun linked => later.stopped (forth linked),
            fun unlinked => later.untouched fun linked => unlinked (back linked)⟩

/-- `stopExecutors` always returns. -/
theorem stopExecutors_returns (pool : JobQueueExecutorPool ε π) :
    ∃ next, (stopExecutors (ε := ε)).exec pool = some (.ok (), next) := by
  rw [stopExecutors, Effect.exec_get_bind]
  split
  · exact ⟨pool, rfl⟩
  · rw [Effect.exec_modify_bind]
    apply stopLoop_returns
    exact Nat.lt_succ_of_le (List.countP_le_length ..)

/-- What the first call of `stopExecutors` leaves behind. -/
theorem stopExecutors_spec {result : Except Throwable Unit} (live : pool.closing = false)
    (ran : (stopExecutors (ε := ε)).exec pool = some (result, next)) :
    result = .ok () ∧ next.closing = true ∧ next.head = none ∧ next.tail = none ∧
      next = { pool with
        closing := next.closing, head := next.head, tail := next.tail
        executors := next.executors } ∧
      next.executors.length = pool.executors.length ∧
      ∀ ref after, next.executors[ref]? = some after → ∃ before,
        pool.executors[ref]? = some before ∧ LoopEffect (pool.Reaches ref) before after := by
  rw [stopExecutors, Effect.exec_get_bind, if_neg (by simp [live]), Effect.exec_modify_bind] at ran
  obtain ⟨returned, frame, length, effect⟩ := stopLoop_spec ran
  exact ⟨returned, by rw [frame], by rw [frame], by rw [frame], by rw [frame], length, effect⟩

/-- A later call of `stopExecutors` does nothing. -/
theorem stopExecutors_of_closing (closing : pool.closing = true) :
    (stopExecutors (ε := ε)).exec pool = some (.ok (), pool) := by
  rw [stopExecutors, Effect.exec_get_bind, if_pos closing, Effect.exec_pure]

/-- After `stopExecutors` the pool is closing, whether or not this call did it. -/
theorem stopExecutors_closing {result : Except Throwable Unit}
    (ran : (stopExecutors (ε := ε)).exec pool = some (result, next)) :
    result = .ok () ∧ next.closing = true := by
  cases closing : pool.closing with
  | true =>
    rw [stopExecutors_of_closing closing] at ran
    cases ran
    exact ⟨rfl, closing⟩
  | false =>
    obtain ⟨returned, closed, -⟩ := stopExecutors_spec closing ran
    exact ⟨returned, closed⟩

/-- The wait only ever comes back from a terminated thread pool, and changes nothing. -/
theorem awaitTermination_spec {result : Except Throwable Unit}
    (ran : (awaitTermination (ε := ε)).exec pool = some (result, next)) :
    result = .ok () ∧ next = pool := by
  rw [awaitTermination, Effect.exec_get_bind] at ran
  split at ran <;> cases ran
  exact ⟨rfl, rfl⟩

/-- `stopNow` is `stopExecutors` followed by steps that leave the executors' records to the abort. -/
theorem stopNow_spec {block : Bool} {result : Except Throwable StopCode}
    (ran : (stopNow block).exec pool = some (result, next)) :
    result = .ok .forced ∧ ∃ stopped, (stopExecutors (ε := ε)).exec pool = some (.ok (), stopped) ∧
      next = { stopped with threads := stopped.threads.shutdownNow }.abort := by
  rw [stopNow] at ran
  rcases Effect.exec_bind_eq_some.mp ran with ⟨_, stopped, stop, ran⟩ | ⟨exception, stop, -⟩
  · rw [Effect.exec_modify_bind, Effect.exec_bind_of_ok (by rw [Effect.exec_swallow]; rfl)] at ran
    cases block with
    | false =>
      cases ran
      exact ⟨rfl, stopped, stop, rfl⟩
    | true =>
      rw [if_pos rfl] at ran
      rcases Effect.exec_bind_eq_some.mp ran with ⟨_, waited, wait, ran⟩ | ⟨exception, wait, -⟩
      · obtain ⟨-, rfl⟩ := awaitTermination_spec wait
        cases ran
        exact ⟨rfl, stopped, stop, rfl⟩
      · exact absurd (awaitTermination_spec wait).1 (by simp)
  · exact absurd (stopExecutors_closing stop).1 (by simp)

/-- Without the wait, `stopNow` always returns. -/
theorem stopNow_returns (pool : JobQueueExecutorPool ε π) :
    ∃ next, (stopNow false).exec pool = some (.ok .forced, next) := by
  obtain ⟨stopped, stop⟩ := stopExecutors_returns pool
  refine ⟨{ stopped with threads := stopped.threads.shutdownNow }.abort, ?_⟩
  rw [stopNow, Effect.exec_bind_of_ok stop, Effect.exec_modify_bind,
    Effect.exec_bind_of_ok (by rw [Effect.exec_swallow]; rfl)]
  rfl

/-- After `stopExecutors`, `stop` does nothing more to an executor than `shutdownCB` may do. -/
theorem stop_spec {block blockAfterKill : Bool} {result : Except Throwable StopCode}
    (ran : (stop block blockAfterKill).exec pool = some (result, next)) :
    ∃ stopped, (stopExecutors (ε := ε)).exec pool = some (.ok (), stopped) ∧
      next.closing = stopped.closing ∧ (next.executors = stopped.executors ∨
        next.executors = stopped.executors.map (·.closeBy .connectionAbort)) := by
  rw [stop] at ran
  rcases Effect.exec_bind_eq_some.mp ran with ⟨_, stopped, stop, ran⟩ | ⟨exception, stop, -⟩
  · refine ⟨stopped, stop, ?_⟩
    rw [Effect.exec_modify_bind, Effect.exec_get_bind] at ran
    dsimp only at ran
    cases block with
    | false => cases ran; exact ⟨rfl, .inl rfl⟩
    | true =>
      rw [if_neg (by decide)] at ran
      by_cases terminated : stopped.threads.shutdown.isTerminated = true
      · rw [if_pos terminated] at ran
        cases ran
        exact ⟨rfl, .inl rfl⟩
      · rw [if_neg terminated, Effect.exec_modify_bind,
          Effect.exec_bind_of_ok (by rw [Effect.exec_swallow]; rfl)] at ran
        cases blockAfterKill with
        | false => cases ran; exact ⟨rfl, .inr rfl⟩
        | true =>
          rw [if_pos rfl] at ran
          rcases Effect.exec_bind_eq_some.mp ran with ⟨_, waited, wait, ran⟩ | ⟨exception, wait, -⟩
          · obtain ⟨-, rfl⟩ := awaitTermination_spec wait
            cases ran
            exact ⟨rfl, .inr rfl⟩
          · exact absurd (awaitTermination_spec wait).1 (by simp)
  · exact absurd (stopExecutors_closing stop).1 (by simp)

end RabbitJobQueue.Model.JobQueueExecutorPool
