import RabbitJobQueue.Proofs.JobQueueSchedule
import RabbitJobQueue.Proofs.PoolWork

/-! # What a thread of the pool can wait for

The code a thread has still to execute keeps its form: it leaves the synchronized block of `stopExecutors`
before it does anything else, it returns at its end, and it waits for the termination of a thread pool only
after it has shut it down. So a thread that does not go on has returned, waits for the worker threads, or
waits for a thread that can go on to leave the block.
-/

namespace RabbitJobQueue.Model

open Machine ThreadPool

namespace Instr

/-- The statement drops the tasks, or waits for the end of all of them. -/
def isEnd : Instr → Bool
  | .shutdownNow | .awaitTermination => true
  | _ => false

/-- The thread is inside the synchronized block and about to leave it. -/
def leaving : List Instr → Bool
  | .stop _ :: rest => leaving rest
  | .unlock :: _ => true
  | _ => false

variable {ε π : Type} {pool next : JobQueueExecutorPool ε π} {answers : ClientAnswers} {expired : Bool}
  {instr : Instr} {more rest : List Instr}

/-- The code of a thread is in form. -/
structure Formed (pool : JobQueueExecutorPool ε π) (code : List Instr) : Prop where
  once : code.count .unlock ≤ 1
  leaves : .unlock ∈ code → leaving code = true
  final : ∀ instr ∈ code.dropLast, instr.isFinal = false
  shut : code.find? (·.isEnd) = some .awaitTermination → pool.threads.isShutdown = true

theorem Formed.mono {code : List Instr} (formed : Formed pool code)
    (shut : pool.threads.isShutdown = true → next.threads.isShutdown = true) : Formed next code :=
  ⟨formed.once, formed.leaves, formed.final, fun awaits => shut (formed.shut awaits)⟩

/-- Only a thread that is leaving the block is inside it. -/
theorem Formed.outside (formed : Formed pool (instr :: rest)) (elsewhere : leaving (instr :: rest) = false) :
    .unlock ∉ rest := by
  intro inside
  rw [formed.leaves (List.mem_cons_of_mem _ inside)] at elsewhere
  contradiction

private theorem leaving_stops (refs : List ExecutorRef) (rest : List Instr) :
    leaving (refs.map .stop ++ .unlock :: rest) = true := by
  induction refs with
  | nil => rfl
  | cons first refs ih => exact ih

private theorem find_stops (refs : List ExecutorRef) (rest : List Instr) :
    (refs.map Instr.stop ++ Instr.unlock :: rest).find? (·.isEnd) = rest.find? (·.isEnd) := by
  induction refs with
  | nil => rfl
  | cons first refs ih => exact ih

/-- The statements that a statement puts in front of the rest hold no `unlock` and no end, and are in
form by themselves, unless they are those of the block. -/
theorem Continues.formed (continues : Continues pool next instr more) (other : instr ≠ .stopExecutors) :
    .unlock ∉ more ∧ (∀ one ∈ more, instr.isFinal = false → one.isFinal = false) ∧
      (∀ one ∈ more.dropLast, one.isFinal = false) ∧ more.find? (·.isEnd) ≠ some .awaitTermination := by
  cases continues with
  | stops => contradiction
  | kills blockAfterKill => cases blockAfterKill <;> simp [isFinal, isEnd]
  | _ => simp [isFinal, isEnd, stopNowCode, replacement]

private theorem dropLast_append_final {last : List Instr} (final : ∀ one ∈ more.dropLast, one.isFinal = false)
    (middle : last ≠ [] → ∀ one ∈ more, one.isFinal = false)
    (rests : ∀ one ∈ last.dropLast, one.isFinal = false) :
    ∀ one ∈ (more ++ last).dropLast, one.isFinal = false := by
  cases last with
  | nil => rwa [List.append_nil]
  | cons first others =>
    intro one member
    rw [List.dropLast_append_of_ne_nil (by simp)] at member
    rcases List.mem_append.mp member with now | later
    · exact middle (by simp) one now
    · exact rests one later

/-- What is in front of something else is not final. -/
theorem Formed.head_not_final (formed : Formed pool (instr :: rest)) (more : rest ≠ []) :
    instr.isFinal = false := by
  apply formed.final
  rw [List.dropLast_cons_of_ne_nil more]
  exact List.mem_cons_self

private theorem Formed.final_rest (formed : Formed pool (instr :: rest)) :
    ∀ one ∈ rest.dropLast, one.isFinal = false := by
  intro one member
  apply formed.final
  cases rest with
  | nil => contradiction
  | cons first others =>
    rw [List.dropLast_cons_of_ne_nil (by simp)]
    exact List.mem_cons_of_mem _ member

/-- A statement that is executed leaves the rest in form. -/
theorem Formed.continued (formed : Formed pool (instr :: rest)) (continues : Continues pool next instr more)
    (shut : pool.threads.isShutdown = true → next.threads.isShutdown = true)
    (drops : instr = .shutdownNow → next.threads.isShutdown = true) : Formed next (more ++ rest) := by
  have fewer : rest.count .unlock ≤ (instr :: rest).count .unlock := List.count_le_count_cons
  have restShut : instr.isEnd = false → rest.find? (·.isEnd) = some .awaitTermination →
      next.threads.isShutdown = true := by
    intro other awaits
    apply shut (formed.shut _)
    rw [List.find?_cons_of_neg (by simp [other]), awaits]
  by_cases entering : instr = .stopExecutors
  · subst entering
    have outside := formed.outside rfl
    cases continues with
    | ends =>
      refine ⟨Nat.le_trans fewer formed.once, fun inside => absurd inside outside, formed.final_rest, ?_⟩
      exact restShut rfl
    | stops refs few opened closed =>
      rw [List.append_assoc, List.singleton_append]
      refine ⟨?_, fun _ => leaving_stops refs rest, ?_, fun awaits => ?_⟩
      · rw [List.count_append, List.count_cons_self, List.count_eq_zero.mpr outside,
          List.count_eq_zero.mpr (by simp)]
      · rw [← List.singleton_append, ← List.append_assoc]
        refine dropLast_append_final ?_ ?_ formed.final_rest
        · simp [isFinal]
        · intro _ one member
          rcases List.mem_append.mp member with stops | unlock
          · obtain ⟨ref, -, rfl⟩ := List.mem_map.mp stops
            rfl
          · rw [List.mem_singleton.mp unlock]
            rfl
      · rw [find_stops] at awaits
        exact restShut rfl awaits
  · obtain ⟨noUnlock, middle, final, noEnd⟩ := continues.formed entering
    refine ⟨?_, fun inside => ?_, ?_, fun awaits => ?_⟩
    · have once := formed.once
      rw [List.count_append, List.count_eq_zero.mpr noUnlock]
      omega
    · have inside := (List.mem_append.mp inside).resolve_left noUnlock
      have leaves := formed.leaves (List.mem_cons_of_mem _ inside)
      cases instr with
      | stop ex => cases continues; exact leaves
      | unlock =>
        have once := formed.once
        rw [List.count_cons_self] at once
        have twice := List.count_pos_iff.mpr inside
        omega
      | _ => contradiction
    · exact dropLast_append_final final (fun more one member => middle one member (formed.head_not_final more))
        formed.final_rest
    · have awaits : rest.find? (·.isEnd) = some .awaitTermination := by
        rw [List.find?_append] at awaits
        cases here : more.find? (·.isEnd) with
        | none => rwa [here, Option.none_or] at awaits
        | some one =>
          rw [here, Option.some_or] at awaits
          exact absurd (here.trans awaits) noEnd
      cases instr with
      | shutdownNow => exact drops rfl
      | awaitTermination => exact shut (formed.shut rfl)
      | _ => exact restShut rfl awaits

/-- So is the code a thread starts with. -/
theorem Formed.of_call {code : List Instr} (outside : .unlock ∉ code)
    (final : ∀ instr ∈ code.dropLast, instr.isFinal = false)
    (noEnd : code.find? (·.isEnd) ≠ some .awaitTermination) : Formed pool code := by
  refine ⟨?_, fun inside => absurd inside outside, final, fun awaits => absurd awaits noEnd⟩
  rw [List.count_eq_zero.mpr outside]
  exact Nat.zero_le 1

/-- The statement has nothing to execute before the thread pool has terminated, or has returned. -/
def waits (pool : JobQueueExecutorPool ε π) : Instr → Bool
  | .awaitTermination => !pool.threads.isTerminated
  | .returned _ => true
  | _ => false

private theorem enforce_returns {α : Type} {method : Effect Throwable (ε × Clock) α}
    (responds : ∀ state, method.exec state ≠ none) :
    ∃ outcome, (JobQueueExecutorPool.enforce (π := π) method).exec pool = some outcome := by
  obtain ⟨outcome, answered⟩ := Option.ne_none_iff_exists'.mp (responds (pool.failureChecker, pool.clock))
  refine ⟨(outcome.1, { pool with failureChecker := outcome.2.1, clock := outcome.2.2 }), ?_⟩
  change (method.exec _).map _ = _
  rw [answered]
  rfl

private theorem bind_pure_returns {α β : Type} {code : JobQueueExecutorPool.Code ε π α} {view : α → β}
    (returns : ∃ outcome, code.exec pool = some outcome) :
    ∃ outcome, (code >>= fun value => pure (view value)).exec pool = some outcome := by
  obtain ⟨outcome, returned⟩ := returns
  rw [Effect.exec_bind_pure, returned]
  exact ⟨_, rfl⟩

variable [ExecutorFailureEnforcer ε]

/-- Every other statement comes back, if the failure checker does and a `stop` has waited long enough. -/
theorem code_returns (responds : ExecutorFailureEnforcer.Responds ε) (goes : instr.waits pool = false) :
    ∃ outcome, (instr.code {} true).exec pool = some outcome := by
  cases instr with
  | markFailure => exact bind_pure_returns (enforce_returns responds.markFailure)
  | shouldHalt ex =>
    have answers : ∃ outcome, (JobQueueExecutorPool.shouldHalt (ε := ε)).exec pool = some outcome :=
      enforce_returns responds.shouldHalt
    obtain ⟨⟨exception | halts, checked⟩, asked⟩ := answers
    · exact ⟨_, Effect.exec_bind_of_error asked⟩
    · rw [code, Effect.exec_bind_of_ok asked]
      cases halts <;> exact ⟨_, rfl⟩
  | reason => exact bind_pure_returns (enforce_returns responds.reason)
  | unlessClosing =>
    rw [code, Effect.exec_get_bind]
    split <;> exact ⟨_, rfl⟩
  | init ex =>
    apply bind_pure_returns
    rw [JobQueueExecutorPool.init]
    simp only [Effect.exec_get_bind]
    split <;> exact ⟨_, rfl⟩
  | stopExecutors =>
    rw [code, Effect.exec_get_bind]
    split
    · exact ⟨_, rfl⟩
    · rw [Effect.exec_modify_bind]
      apply bind_pure_returns
      obtain ⟨stopped, loop⟩ := JobQueueExecutorPool.stopLoop_returns (pool.executors.length + 1) pool.head
        { pool with closing := true, head := none, tail := none } (Nat.lt_succ_of_le List.countP_le_length)
      obtain ⟨refs, detached, visited, -⟩ := JobQueueExecutorPool.detach_of_stopLoop loop
      exact ⟨_, visited⟩
  | shutdownCB => exact ⟨_, Effect.exec_bind_of_ok (by rw [Effect.exec_swallow]; rfl)⟩
  | awaitKillAfter blockAfterKill =>
    rw [code, Effect.exec_get_bind]
    split <;> exact ⟨_, rfl⟩
  | awaitTermination =>
    apply bind_pure_returns
    rw [JobQueueExecutorPool.awaitTermination, Effect.exec_get_bind, if_pos (by simpa [waits] using goes)]
    exact ⟨_, rfl⟩
  | add ex => exact bind_pure_returns ⟨_, rfl⟩
  | returned code => contradiction
  | remove | stop | createNew | unlock | shutdown | shutdownNow | isTerminated => exact ⟨_, rfl⟩

end Instr

theorem Winds.isShutdown {π : Type} {forced : Prop} {before after : ThreadPool π}
    (winds : Winds forced before after) (shut : before.isShutdown = true) : after.isShutdown = true := by
  cases winds with
  | same => exact shut
  | shutdown => rfl
  | shutdownNow drops => rfl

namespace PoolThreads

open Instr

variable {ε π : Type} {threads next : PoolThreads ε π} {action : PoolAction}

/-- The code of every thread is in form. -/
def InForm (threads : PoolThreads ε π) : Prop := ∀ code ∈ threads.activities, Formed threads.pool code

theorem inForm_starting (pool : JobQueueExecutorPool ε π) : InForm (starting pool) := by
  intro code member
  rw [List.mem_singleton.mp member, startCode]
  apply Formed.of_call
  · simp
  · simp [isFinal]
  · rw [List.find?_replicate]
    simp [isEnd]

private theorem InForm.call (inForm : InForm threads) {code : List Instr}
    (formed : Formed threads.pool code) : InForm (threads.call code) := by
  intro other member
  rcases List.mem_append.mp member with old | new
  · exact inForm other old
  · rw [List.mem_singleton.mp new]
    exact formed

variable [ExecutorFailureEnforcer ε]

theorem inForm_step (inForm : InForm threads) (stepped : threads.step action = some next) : InForm next := by
  have shut : threads.pool.threads.isShutdown = true → next.pool.threads.isShutdown = true :=
    (step_winds stepped).isShutdown
  cases action with
  | callStop block blockAfterKill =>
    cases stepped
    apply inForm.call
    cases block <;>
      exact .of_call (by simp [stopCode]) (by simp [stopCode, isFinal]) (by simp [stopCode, isEnd])
  | callStopNow block =>
    cases stepped
    apply inForm.call
    cases block <;>
      exact .of_call (by simp [stopNowCode]) (by simp [stopNowCode, isFinal]) (by simp [stopNowCode, isEnd])
  | close ex cause =>
    unfold step at stepped
    dsimp only at stepped
    split at stepped <;> cases stepped
    exact fun code member => (inForm code member).mono id
  | signal ex =>
    obtain ⟨cause, -, same⟩ := Option.map_eq_some_iff.mp stepped
    cases same
    intro code member
    rcases List.mem_append.mp member with old | new
    · exact (inForm code old).mono id
    · rw [List.mem_singleton.mp new]
      cases cause.isInitiatedByApplication <;> exact .of_call (by simp [onConsumerShutdown, replacement])
        (by simp [onConsumerShutdown, replacement, isFinal]) (by simp [onConsumerShutdown, replacement, isEnd])
  | exec activity answers expired =>
    obtain ⟨instr, rest, result, read, -, ran, activities⟩ := exec_eq_some.mp stepped
    intro code member
    rw [activities] at member
    rcases List.mem_or_eq_of_mem_set member with old | rfl
    · exact (inForm code old).mono shut
    · have formed := inForm _ (List.mem_of_getElem? read)
      cases result with
      | error exception =>
        exact .of_call (by simp [continuation]) (by simp [continuation]) (by simp [continuation])
      | ok more =>
        refine formed.continued (code_continues ran) shut fun drops => ?_
        subst drops
        obtain ⟨pool, _⟩ := next
        cases ran
        rfl

/-- The thread has ended, or waits for the termination of a thread pool that has been shut down. -/
def Resting (pool : JobQueueExecutorPool ε π) (code : List Instr) : Prop :=
  code = [] ∨ (∃ answer, code = [.returned answer]) ∨
    (∃ rest, code = .awaitTermination :: rest) ∧ pool.threads.isShutdown = true ∧
      pool.threads.isTerminated = false

private theorem exec_enabled (responds : ExecutorFailureEnforcer.Responds ε) {activity : ℕ} {instr : Instr}
    {rest : List Instr} (read : threads.activities[activity]? = some (instr :: rest))
    (free : instr = .stopExecutors → threads.locked = false) (goes : instr.waits threads.pool = false) :
    ∃ next, threads.exec activity {} true = some next := by
  obtain ⟨⟨result, pool⟩, ran⟩ := code_returns responds goes
  exact ⟨⟨pool, _⟩, exec_eq_some.mpr ⟨instr, rest, result, read, free, ran, rfl⟩⟩

/-- The thread that is inside the synchronized block can go on. -/
theorem unlocked_of_quiet (responds : ExecutorFailureEnforcer.Responds ε) (inForm : InForm threads)
    (quiet : ∀ activity answers expired, threads.exec activity answers expired = none) :
    threads.locked = false := by
  rw [locked, List.any_eq_false]
  intro code member inside
  obtain ⟨activity, read⟩ := List.mem_iff_getElem?.mp member
  have leaves := (inForm code member).leaves (by simpa using inside)
  have refused := quiet activity {} true
  cases code with
  | nil => contradiction
  | cons instr rest =>
    have free : ∃ next, threads.exec activity {} true = some next := by
      apply exec_enabled responds read
      · rintro rfl
        contradiction
      · cases instr <;> first | rfl | contradiction
    obtain ⟨next, ran⟩ := free
    rw [refused] at ran
    contradiction

/-- No thread can execute a statement exactly when all of them are at rest: none of them waits for another
one of them. -/
theorem quiet_iff_resting (responds : ExecutorFailureEnforcer.Responds ε) (inForm : InForm threads) :
    (∀ activity answers expired, threads.exec activity answers expired = none) ↔
      ∀ code ∈ threads.activities, Resting threads.pool code := by
  constructor
  · intro quiet code member
    obtain ⟨activity, read⟩ := List.mem_iff_getElem?.mp member
    have formed := inForm code member
    cases code with
    | nil => exact .inl rfl
    | cons instr rest =>
      have stuck : instr.waits threads.pool = true := by
        by_contra goes
        obtain ⟨next, ran⟩ := exec_enabled responds read
          (fun _ => unlocked_of_quiet responds inForm quiet) (eq_false_of_ne_true goes)
        rw [quiet activity {} true] at ran
        contradiction
      cases instr with
      | returned answer =>
        refine .inr (.inl ⟨answer, ?_⟩)
        cases rest with
        | nil => rfl
        | cons first others =>
          have impossible := formed.head_not_final (List.cons_ne_nil first others)
          contradiction
      | awaitTermination =>
        exact .inr (.inr ⟨⟨rest, rfl⟩, formed.shut rfl, by simpa [waits] using stuck⟩)
      | _ => contradiction
  · intro resting activity answers expired
    by_contra enabled
    obtain ⟨next, ran⟩ := Option.ne_none_iff_exists'.mp enabled
    obtain ⟨instr, rest, result, read, -, ran, -⟩ := exec_eq_some.mp ran
    rcases resting _ (List.mem_of_getElem? read) with nothing | ⟨answer, only⟩ | ⟨⟨later, waiting⟩, -, alive⟩
    · contradiction
    · cases only
      cases ran
    · cases waiting
      obtain ⟨_, wait, -⟩ := Effect.of_exec_bind_pure ran
      rw [JobQueueExecutorPool.awaitTermination, Effect.exec_get_bind, if_neg (by simp [alive])] at wait
      cases wait

end PoolThreads

end RabbitJobQueue.Model
