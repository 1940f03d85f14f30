import RabbitJobQueue.Proofs.ExecutorList
import RabbitJobQueue.Proofs.PoolThreads

/-! # The methods are runs of their statements

A method of the pool, taken as one block, is what its thread does when no other thread interferes:
`start`, `stopExecutors` and the whole shutdown callback are runs of `PoolThreads.step`. So a life
of the pool that goes one callback at a time is among the interleavings of its threads.
-/

namespace RabbitJobQueue.Model.JobQueueExecutorPool

open Machine

variable {ε π : Type} {pool next : JobQueueExecutorPool ε π} {ref : ExecutorRef}

/-- Two assignments to the heap that do not depend on each other can be made in either order. -/
theorem update_comm {first second : Executor → Executor} {other : ExecutorRef}
    (commute : ∀ executor, first (second executor) = second (first executor)) :
    (pool.update other second).update ref first = (pool.update ref first).update other second := by
  simp only [update, JobQueueExecutorPool.mk.injEq, true_and, and_true]
  by_cases same : ref = other
  · subst same
    rw [List.modify_modify_eq, List.modify_modify_eq]
    exact congrArg (pool.executors.modify ref) (funext commute)
  · exact List.modify_modify_ne second first pool.executors (Ne.symm same)

private theorem setPrev_stopExecutor {other : ExecutorRef} {target : Option ExecutorRef} :
    (pool.stopExecutor ref).setPrev other target = (pool.setPrev other target).stopExecutor ref :=
  update_comm fun _ => rfl

private theorem setNext_stopExecutor {other : ExecutorRef} {target : Option ExecutorRef} :
    (pool.stopExecutor ref).setNext other target = (pool.setNext other target).stopExecutor ref :=
  update_comm fun _ => rfl

private theorem nextOf_stopExecutor : (pool.stopExecutor ref).nextOf = pool.nextOf :=
  nextOf_update_of_same fun _ => rfl

private theorem nextOf_unlink (pool : JobQueueExecutorPool ε π) (ref : ExecutorRef) :
    ((pool.setPrev ref none).setNext ref none).nextOf =
      fun a => if a = ref then none else pool.nextOf a := by
  have same : (((pool.setPrev ref none).setNext ref none).stopExecutor ref).nextOf =
      ((pool.setPrev ref none).setNext ref none).nextOf := nextOf_stopExecutor
  rw [← same, visit_eq, nextOf_visit]

/-- The loop's traversal does not look at the channels. -/
theorem detach_stopExecutor {fuel : ℕ} {head : Option ExecutorRef} :
    (detach fuel head).exec (pool.stopExecutor ref) = ((detach fuel head).exec pool).map
      fun outcome => (outcome.1, outcome.2.stopExecutor ref) := by
  induction fuel generalizing head pool with
  | zero => cases head <;> rfl
  | succ fuel ih =>
    cases head with
    | none => rfl
    | some first =>
      rw [detach]
      simp only [Effect.exec_get_bind, Effect.exec_modify_bind, setPrev_stopExecutor,
        setNext_stopExecutor, nextOf_stopExecutor, Effect.exec_bind_pure, ih, Option.map_map]
      rfl

/-- The loop of `stopExecutors` comes to every executor the list leads to. -/
theorem mem_detach {fuel : ℕ} {head : Option ExecutorRef} {refs : List ExecutorRef}
    (ran : (detach fuel head).exec pool = some (.ok refs, next)) (linked : Linked pool.nextOf head ref) :
    ref ∈ refs := by
  induction fuel generalizing head pool refs with
  | zero =>
    cases head with
    | none => exact absurd linked not_linked_none
    | some first => cases ran
  | succ fuel ih =>
    cases head with
    | none => exact absurd linked not_linked_none
    | some first =>
      rw [detach] at ran
      simp only [Effect.exec_get_bind, Effect.exec_modify_bind, Effect.exec_bind_pure] at ran
      obtain ⟨⟨result, _⟩, later, same⟩ := Option.map_eq_some_iff.mp ran
      cases result with
      | error exception => cases same
      | ok rest =>
        cases same
        by_cases here : ref = first
        · exact here ▸ List.mem_cons_self
        · refine List.mem_cons_of_mem _ (ih later ?_)
          rw [nextOf_unlink]
          exact linked.advance_cleared here

/-- The loop of `stopExecutors` closes the channels of the executors it detaches. -/
theorem detach_of_stopLoop {fuel : ℕ} {head : Option ExecutorRef} {result : Except Throwable Unit}
    (ran : (stopLoop fuel head).exec pool = some (result, next)) :
    ∃ refs detached, (detach fuel head).exec pool = some (.ok refs, detached) ∧
      next = refs.foldl stopExecutor detached := by
  induction fuel generalizing head pool with
  | zero =>
    cases head with
    | none => cases ran; exact ⟨[], next, rfl, rfl⟩
    | some first => cases ran
  | succ fuel ih =>
    cases head with
    | none => cases ran; exact ⟨[], next, rfl, rfl⟩
    | some first =>
      rw [stopLoop_cons, ← visit_eq] at ran
      obtain ⟨refs, detached, later, same⟩ := ih ran
      rw [detach_stopExecutor] at later
      obtain ⟨⟨_, inner⟩, visited, unchanged⟩ := Option.map_eq_some_iff.mp later
      cases unchanged
      refine ⟨first :: refs, inner, ?_, same⟩
      rw [detach]
      simp only [Effect.exec_get_bind, Effect.exec_modify_bind, Effect.exec_bind_pure, visited]
      rfl

end RabbitJobQueue.Model.JobQueueExecutorPool

namespace RabbitJobQueue.Model.PoolThreads

open Machine JobQueueExecutorPool

variable {ε π : Type} [ExecutorFailureEnforcer ε] {pool next : JobQueueExecutorPool ε π}
  {others : List (List Instr)} {instr : Instr} {rest : List Instr}

/-- In an open pool `stopExecutors` leads to a call of `stop` for everything on the list. -/
theorem stop_mem_of_reaches {answers : ClientAnswers} {expired : Bool} {more : List Instr}
    {ex : ExecutorRef} (open' : pool.closing = false)
    (ran : (Instr.stopExecutors.code answers expired).exec pool = some (.ok more, next))
    (reached : pool.Reaches ex) : .stop ex ∈ more := by
  rw [Instr.code, Effect.exec_get_bind, if_neg (by rw [open']; decide), Effect.exec_modify_bind] at ran
  obtain ⟨refs, detached, visit, ran⟩ := Effect.exec_bind_eq_ok.mp ran
  cases ran
  exact List.mem_append_left _ (List.mem_map_of_mem (mem_detach visit reached))

theorem isOpen_of_stop {answers : ClientAnswers} {expired : Bool} {result : Except Throwable (List Instr)}
    {ex : ExecutorRef} (ran : ((Instr.stop ex).code answers expired).exec pool = some (result, next)) :
    next.isOpen ex = false := by
  cases ran
  unfold stopExecutor JobQueueExecutorPool.isOpen
  rw [update_executors, List.getElem?_modify_eq]
  cases pool.executors[ex]? <;> simp

/-- No thread is inside the synchronized block. -/
def Unlocked (others : List (List Instr)) : Prop := ∀ code ∈ others, .unlock ∉ code

/-- The last thread, running code `first` on a pool, comes to have `second` left on another. -/
def Alone (others : List (List Instr)) (first second : JobQueueExecutorPool ε π × List Instr) : Prop :=
  Reachable step ⟨first.1, others ++ [first.2]⟩ ⟨second.1, others ++ [second.2]⟩

namespace Alone

private theorem refl (here : JobQueueExecutorPool ε π × List Instr) : Alone others here here :=
  Reachable.refl _

private theorem trans {first second third : JobQueueExecutorPool ε π × List Instr}
    (left : Alone others first second) (right : Alone others second third) :
    Alone others first third :=
  Reachable.trans left right

private theorem exec (answers : ClientAnswers) (expired : Bool) {result : Except Throwable (List Instr)}
    (free : instr = .stopExecutors → Unlocked others ∧ .unlock ∉ rest)
    (ran : (instr.code answers expired).exec pool = some (result, next)) :
    Alone others (pool, instr :: rest) (next, continuation rest result) := by
  refine ⟨[.exec others.length answers expired], run_singleton.trans ?_⟩
  refine exec_eq_some.mpr ⟨instr, rest, result, ?_, ?_, ran, ?_⟩
  · simp
  · intro entering
    obtain ⟨unlocked, own⟩ := free entering
    subst entering
    rw [locked, List.any_eq_false]
    intro code member
    rcases List.mem_append.mp member with other | last
    · simpa using unlocked code other
    · rw [List.mem_singleton.mp last]
      simpa using own
  · simp

private theorem returns (answers : ClientAnswers) (expired : Bool) (more : List Instr)
    (free : instr = .stopExecutors → Unlocked others ∧ .unlock ∉ rest)
    (ran : (instr.code answers expired).exec pool = some (.ok more, next)) :
    Alone others (pool, instr :: rest) (next, more ++ rest) :=
  exec answers expired free ran

private theorem throws (answers : ClientAnswers) (expired : Bool) (exception : Throwable)
    (free : instr = .stopExecutors → Unlocked others ∧ .unlock ∉ rest)
    (ran : (instr.code answers expired).exec pool = some (.error exception, next)) :
    Alone others (pool, instr :: rest) (next, []) :=
  exec answers expired free ran

private theorem stops (refs : List ExecutorRef) (pool : JobQueueExecutorPool ε π) :
    Alone others (pool, refs.map .stop ++ rest) (refs.foldl stopExecutor pool, rest) := by
  induction refs generalizing pool with
  | nil => exact .refl _
  | cons ref refs ih =>
    exact (exec {} false (by simp) rfl).trans (ih (pool.stopExecutor ref))

private theorem stopExecutors {result : Except Throwable Unit} (unlocked : Unlocked others)
    (own : .unlock ∉ rest)
    (ran : (JobQueueExecutorPool.stopExecutors (ε := ε)).exec pool = some (result, next)) :
    Alone others (pool, .stopExecutors :: rest) (next, rest) := by
  rw [JobQueueExecutorPool.stopExecutors, Effect.exec_get_bind] at ran
  by_cases closing : pool.closing = true
  · rw [if_pos closing] at ran
    cases ran
    refine returns {} false [] (fun _ => ⟨unlocked, own⟩) ?_
    rw [Instr.code, Effect.exec_get_bind, if_pos closing]
    rfl
  · rw [if_neg closing, Effect.exec_modify_bind] at ran
    obtain ⟨refs, detached, visit, same⟩ := detach_of_stopLoop ran
    have enter : ((Instr.stopExecutors).code {} false).exec pool =
        some (.ok (refs.map .stop ++ [.unlock]), detached) := by
      rw [Instr.code, Effect.exec_get_bind, if_neg closing, Effect.exec_modify_bind,
        Effect.exec_bind_of_ok visit]
      rfl
    refine (exec _ _ (fun _ => ⟨unlocked, own⟩) enter).trans ?_
    rw [same, continuation, List.append_assoc]
    apply (stops refs detached).trans
    exact returns {} false [] (by simp) rfl

private theorem stopNow {result : Except Throwable StopCode} (unlocked : Unlocked others)
    (ran : (JobQueueExecutorPool.stopNow true).exec pool = some (result, next)) :
    Alone others (pool, Instr.stopNowCode true) (next, []) := by
  rw [JobQueueExecutorPool.stopNow] at ran
  rcases Effect.exec_bind_eq_some.mp ran with ⟨_, stopped, stop, ran⟩ | ⟨exception, stop, -⟩
  · apply (stopExecutors unlocked (by decide) stop).trans
    rw [Effect.exec_modify_bind, Effect.exec_bind_of_ok (by rw [Effect.exec_swallow]; rfl),
      if_pos rfl] at ran
    apply (exec {} false (by simp) rfl).trans
    have aborted : ((Instr.shutdownCB).code {} false).exec
        { stopped with threads := stopped.threads.shutdownNow } =
          some (.ok [], { stopped with threads := stopped.threads.shutdownNow }.abort) := by
      rw [Instr.code, Effect.exec_bind_of_ok (by rw [Effect.exec_swallow]; rfl)]
      rfl
    apply (exec _ _ (by simp) aborted).trans
    rcases Effect.exec_bind_eq_some.mp ran with ⟨_, waited, wait, ran⟩ | ⟨exception, wait, -⟩
    · cases ran
      apply returns {} false [] (by simp)
      rw [Instr.code, Effect.exec_bind_of_ok wait]
      rfl
    · exact absurd (awaitTermination_spec wait).1 (by simp)
  · exact absurd (stopExecutors_closing stop).1 (by simp)

private theorem addNew {answers : ClientAnswers} {result : Except Throwable Unit}
    (ran : (JobQueueExecutorPool.addNew answers).exec pool = some (result, next)) :
    Alone others (pool, .createNew :: rest) (next, continuation rest (result.map fun _ => [])) := by
  rw [JobQueueExecutorPool.addNew] at ran
  rcases Effect.exec_bind_eq_some.mp ran with ⟨ex, created, create, ran⟩ | ⟨exception, create, rfl⟩
  · have first : ((Instr.createNew).code answers false).exec pool =
        some (.ok [.init ex, .add ex], created) := by
      rw [Instr.code, Effect.exec_bind_of_ok create]
      rfl
    apply (exec _ _ (by simp) first).trans
    rcases Effect.exec_bind_eq_some.mp ran with ⟨_, subscribed, subscribe, ran⟩ |
      ⟨exception, subscribe, rfl⟩
    · have second : ((Instr.init ex).code answers false).exec created = some (.ok [], subscribed) := by
        rw [Instr.code, Effect.exec_bind_of_ok subscribe]
        rfl
      refine (exec _ _ (by simp) second).trans (exec answers false (by simp) ?_)
      rw [Instr.code]
      cases result with
      | ok _ => rw [Effect.exec_bind_of_ok ran]; rfl
      | error exception => rw [Effect.exec_bind_of_error ran]; rfl
    · apply throws answers false exception (by simp)
      rw [Instr.code, Effect.exec_bind_of_error subscribe]
  · apply throws answers false exception (by simp)
    rw [Instr.code, Effect.exec_bind_of_error create]

private theorem replace {ref : ExecutorRef} {answers : ClientAnswers} {result : Except Throwable Unit}
    (ran : (JobQueueExecutorPool.replace ref answers).exec pool = some (result, next)) :
    Alone others (pool, Instr.replacement ref) (next, []) := by
  simp only [JobQueueExecutorPool.replace, Effect.exec_modify_bind, Effect.exec_get_bind] at ran
  apply (exec {} false (by simp) rfl).trans
  apply (exec {} false (by simp) rfl).trans
  by_cases closing : ((pool.remove ref).stopExecutor ref).closing = true
  · rw [if_pos closing] at ran
    cases ran
    apply returns {} false [] (by simp)
    rw [Instr.code, Effect.exec_get_bind, if_pos closing]
    rfl
  · rw [if_neg closing] at ran
    have checked : ((Instr.unlessClosing).code {} false).exec
        ((pool.remove ref).stopExecutor ref) =
          some (.ok [.createNew], (pool.remove ref).stopExecutor ref) := by
      rw [Instr.code, Effect.exec_get_bind, if_neg closing]
      rfl
    apply (exec _ _ (by simp) checked).trans
    have added : Alone others _ (_, continuation [] (result.map fun _ => [])) := addNew ran
    cases result <;> exact added

private theorem onConsumerShutdown {ref : ExecutorRef} {initiated : Bool} {answers : ClientAnswers}
    {result : Except Throwable Unit} (unlocked : Unlocked others)
    (ran : (JobQueueExecutorPool.onConsumerShutdown ref initiated answers).exec pool =
      some (result, next)) :
    Alone others (pool, Instr.onConsumerShutdown ref initiated) (next, []) := by
  rw [JobQueueExecutorPool.onConsumerShutdown] at ran
  cases initiated with
  | true =>
    rw [if_pos rfl] at ran
    exact replace ran
  | false =>
    rw [if_neg Bool.false_ne_true] at ran
    change Alone others (pool, [.markFailure, .shouldHalt ref]) (next, [])
    rcases Effect.exec_bind_eq_some.mp ran with ⟨_, marked, mark, ran⟩ | ⟨exception, mark, -⟩
    · have first : ((Instr.markFailure).code {} false).exec pool = some (.ok [], marked) := by
        rw [Instr.code, Effect.exec_bind_of_ok mark]
        rfl
      apply (exec _ _ (by simp) first).trans
      rcases Effect.exec_bind_eq_some.mp ran with ⟨halts, checked, check, ran⟩ | ⟨exception, check, -⟩
      · cases halts with
        | false =>
          have second : ((Instr.shouldHalt ref).code {} false).exec marked =
              some (.ok (Instr.replacement ref), checked) := by
            rw [Instr.code, Effect.exec_bind_of_ok check]
            rfl
          exact (exec _ _ (by simp) second).trans (replace ran)
        | true =>
          have second : ((Instr.shouldHalt ref).code {} false).exec marked =
              some (.ok (.reason :: Instr.stopNowCode true), checked) := by
            rw [Instr.code, Effect.exec_bind_of_ok check]
            rfl
          apply (exec _ _ (by simp) second).trans
          rcases Effect.exec_bind_eq_some.mp ran with ⟨_, told, tell, ran⟩ | ⟨exception, tell, -⟩
          · have third : ((Instr.reason).code {} false).exec checked = some (.ok [], told) := by
              rw [Instr.code, Effect.exec_bind_of_ok tell]
              rfl
            apply (exec _ _ (by simp) third).trans
            rcases Effect.exec_bind_eq_some.mp ran with ⟨code, stopped, stop, ran⟩ |
              ⟨exception, stop, -⟩
            · cases ran
              exact stopNow unlocked stop
            · exact stopNow unlocked stop
          · apply throws {} false exception (by simp)
            rw [Instr.code, Effect.exec_bind_of_error tell]
      · apply throws {} false exception (by simp)
        rw [Instr.code, Effect.exec_bind_of_error check]
    · apply throws {} false exception (by simp)
      rw [Instr.code, Effect.exec_bind_of_error mark]

end Alone

/-- The death of a consumer with its callback, taken as one block, is a run of the threads. -/
theorem death_reachable {event : ConsumerDeath} (unlocked : Unlocked others)
    (died : pool.death event = some next) :
    Reachable step ⟨pool, others⟩ ⟨next, others ++ [[]]⟩ := by
  rw [death] at died
  split at died
  · next enabled =>
    rw [Bool.and_eq_true] at enabled
    obtain ⟨executor, read, live⟩ := isLive_iff.mp enabled.1
    rw [Executor.isLive, Bool.and_eq_true] at live
    obtain ⟨⟨result, final⟩, ran, same⟩ := Option.map_eq_some_iff.mp died
    cases same
    have closes : step ⟨pool, others⟩ (.close event.ref event.cause) =
        some ⟨pool.closeChannel event.ref event.cause, others⟩ := by
      have opened : pool.isOpen event.ref = true := isOpen_iff.mpr ⟨executor, read, live.2⟩
      unfold step
      dsimp only
      rw [if_pos (by rw [opened, Bool.true_and]; exact enabled.2)]
    have due : dueSignal (ε := ε) (π := π) ⟨pool.closeChannel event.ref event.cause, others⟩ event.ref =
        some event.cause := by
      have closed : (pool.closeChannel event.ref event.cause).executors[event.ref]? =
          some (executor.closeBy event.cause) := by
        rw [closeChannel, update_executors, List.getElem?_modify_eq, read]
        rfl
      have quiet : (executor.closeBy event.cause).signalled = false :=
        Executor.signalled_of_isOpen executor live.2
      rw [dueSignal, closed, Option.bind_some, quiet, if_pos (by simpa [Executor.closeBy] using live.1)]
      exact Channel.closedBy_close_of_isOpen live.2 _
    have killed : (pool.closeChannel event.ref event.cause).kill event.ref event.cause =
        pool.kill event.ref event.cause := by
      unfold kill closeChannel update
      rw [List.modify_modify_eq]
      exact congrArg (fun executors => { pool with executors })
        (congrArg (pool.executors.modify event.ref) (funext fun _ => Executor.die_closeBy))
    have signals : step ⟨pool.closeChannel event.ref event.cause, others⟩ (.signal event.ref) =
        some ⟨pool.kill event.ref event.cause,
          others ++ [Instr.onConsumerShutdown event.ref event.cause.isInitiatedByApplication]⟩ := by
      unfold step
      dsimp only
      rw [due, Option.map_some, killed]
    exact ((Reachable.refl _).next closes).next signals |>.trans (Alone.onConsumerShutdown unlocked ran)
  · contradiction

private theorem deaths_reachable {deaths : List ConsumerDeath} (others : List (List Instr))
    (unlocked : Unlocked others) (ran : run death pool deaths = some next) :
    Reachable step ⟨pool, others⟩ ⟨next, others ++ List.replicate deaths.length []⟩ := by
  induction deaths generalizing pool others with
  | nil =>
    cases ran
    rw [List.length_nil, List.replicate_zero, List.append_nil]
    exact .refl _
  | cons event rest ih =>
    obtain ⟨middle, died, continued⟩ := run_cons_eq_some.mp ran
    have still : Unlocked (others ++ [[]]) := by
      intro code member
      rcases List.mem_append.mp member with other | last
      · exact unlocked code other
      · rw [List.mem_singleton.mp last]
        exact List.not_mem_nil
    apply (death_reachable unlocked died).trans
    have grown := ih (others ++ [[]]) still continued
    rwa [List.append_assoc, List.singleton_append, ← List.replicate_succ] at grown

private theorem startFrom_reachable {answers : ℕ → ClientAnswers} {first remaining : ℕ}
    (ran : (startFrom answers first remaining).exec pool = some (.ok (), next)) :
    Alone [] (pool, List.replicate remaining .createNew) (next, []) := by
  induction remaining generalizing first pool with
  | zero => cases ran; exact .refl _
  | succ remaining ih =>
    rw [startFrom] at ran
    obtain ⟨_, middle, added, later⟩ := Effect.exec_bind_eq_ok.mp ran
    exact (Alone.addNew added).trans (ih later)

/-- A life that goes one callback at a time is one of the interleavings of the pool's threads. -/
theorem life_reachable {answers : ℕ → ClientAnswers} {fresh started : JobQueueExecutorPool ε π}
    {deaths : List ConsumerDeath} (complete : (start answers).exec fresh = some (.ok (), started))
    (ran : run death started deaths = some next) :
    Reachable step (starting fresh) ⟨next, [] :: List.replicate deaths.length []⟩ := by
  rw [start, Effect.exec_get_bind] at complete
  have lives := deaths_reachable [[]] (by simp [Unlocked]) ran
  exact Reachable.trans (startFrom_reachable complete) lives

end RabbitJobQueue.Model.PoolThreads
