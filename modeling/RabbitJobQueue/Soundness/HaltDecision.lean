import RabbitJobQueue.Proofs.PolicyEnforcers
import RabbitJobQueue.Proofs.StopExecutors

/-! # Carrying out a decision to halt

When the failure checker says halt, the shutdown callback asks it for the reason before it stops the pool.
An enforcer of `ofAny` looks for the reason by asking its enforcers once more, at later readings of the
clock, and throws when none of them says halt any longer: then the pool is neither stopped nor does it
get a new consumer.
-/

namespace RabbitJobQueue.Soundness.HaltDecision

open Machine Model Model.JobQueueExecutorPool Model.PolicyEnforcer

variable {π : Type} {pool checked : JobQueueExecutorPool PolicyEnforcer π}

/-- The shutdown callback has marked the failure, and the checker has told it to halt. -/
def Decides (pool checked : JobQueueExecutorPool PolicyEnforcer π) : Prop :=
  (do markFailure; shouldHalt : Code PolicyEnforcer π Bool).exec pool = some (.ok true, checked)

/-- The checker names its reason, and the callback goes on to `stopNow`, which closes the pool. -/
def CarriedOut (pool checked : JobQueueExecutorPool PolicyEnforcer π) : Prop :=
  ∃ message explained stopped, reason.exec checked = some (.ok message, explained) ∧
    stopExecutors.exec explained = some (.ok (), stopped) ∧ stopped.closing = true ∧
    ∀ ref answers, (onConsumerShutdown ref false answers).exec pool =
      (do let _ ← stopNow true; pure ()).exec explained

/-- What the callback has called on the checker so far. -/
theorem run_of_decides (decides : Decides pool checked) :
    run CheckerCall.step (pool.failureChecker, pool.clock) [.markFailure, .shouldHalt] =
      some (checked.failureChecker, checked.clock) := by
  obtain ⟨_, marked, mark, check⟩ := Effect.exec_bind_eq_ok.mp decides
  rw [JobQueueExecutorPool.markFailure, Effect.exec_modify_bind] at mark
  have told := checker_of_enforce mark
  have asked := checker_of_enforce check
  refine run_cons_eq_some.mpr ⟨(marked.failureChecker, marked.clock), ?_, ?_⟩
  · exact congrArg (Option.map Prod.snd) told
  · exact run_singleton.trans (congrArg (Option.map Prod.snd) asked)

private theorem carriedOut_of_reason (decides : Decides pool checked) {message : String}
    {explained : JobQueueExecutorPool PolicyEnforcer π}
    (named : reason.exec checked = some (.ok message, explained)) : CarriedOut pool checked := by
  obtain ⟨stopped, stop⟩ := stopExecutors_returns explained
  refine ⟨message, explained, stopped, named, stop, (stopExecutors_closing stop).2, ?_⟩
  intro ref answers
  obtain ⟨_, marked, mark, check⟩ := Effect.exec_bind_eq_ok.mp decides
  rw [onConsumerShutdown, if_neg Bool.false_ne_true, Effect.exec_bind_of_ok mark,
    Effect.exec_bind_of_ok check, if_pos rfl, Effect.exec_bind_of_ok named]

private theorem reason_exec (checked : JobQueueExecutorPool PolicyEnforcer π) :
    reason.exec checked = some ((checked.failureChecker.reason checked.clock).1, { checked with
      failureChecker := (checked.failureChecker.reason checked.clock).2.1
      clock := (checked.failureChecker.reason checked.clock).2.2 }) := rfl

/-- When `reason` throws, so does the callback, and the pool stays open. -/
theorem throws_of_reason (decides : Decides pool checked) {exception : Throwable}
    (thrown : (checked.failureChecker.reason checked.clock).1 = .error exception) :
    ¬ CarriedOut pool checked ∧ ∃ after, after.closing = pool.closing ∧
      ∀ ref answers, (onConsumerShutdown ref false answers).exec pool = some (.error exception, after) := by
  have told := reason_exec checked
  rw [thrown] at told
  constructor
  · rintro ⟨message, explained, -, named, -⟩
    cases told.symm.trans named
  · obtain ⟨_, marked, mark, check⟩ := Effect.exec_bind_eq_ok.mp decides
    have unchanged := ((markFailure_same mark).trans (enforce_same check)).trans (enforce_same told)
    refine ⟨_, unchanged.closing, fun ref answers => ?_⟩
    rw [onConsumerShutdown, if_neg Bool.false_ne_true, Effect.exec_bind_of_ok mark,
      Effect.exec_bind_of_ok check, if_pos rfl, Effect.exec_bind_of_error told]

/-- For every policy, every history of calls on the enforcer it makes and every clock that does not go
back: a decision to halt is carried out if and only if what `reason` looks for is still there. -/
theorem carriedOut_iff_explained (policy : ExecutorFailurePolicy) (clock : Clock) (forward : clock.Runs)
    (history : List CheckerCall) (pool checked : JobQueueExecutorPool PolicyEnforcer π)
    (reached : run CheckerCall.step (policy.newEnforcer, clock) history =
      some (pool.failureChecker, pool.clock)) (decides : Decides pool checked) :
    CarriedOut pool checked ↔ Explained checked.failureChecker checked.clock := by
  have whole : run CheckerCall.step (policy.newEnforcer, clock) (history ++ [.markFailure, .shouldHalt]) =
      some (checked.failureChecker, checked.clock) :=
    run_append_eq_some.mpr ⟨_, reached, run_of_decides decides⟩
  have runs : checked.clock.Runs := runs_of_run forward whole
  obtain ⟨returns, -⟩ := (Agrees.refl checked.failureChecker).reason runs
  rw [← returns]
  constructor
  · rintro ⟨message, explained, stopped, named, -⟩
    rw [reason_exec] at named
    exact ⟨message, (Prod.mk.inj (Option.some.inj named)).1⟩
  · rintro ⟨message, named⟩
    have told := reason_exec checked
    rw [named] at told
    exact carriedOut_of_reason decides told

/-- At most one failure within two seconds, under two levels of `ofAny`, and failures 1.5 seconds apart. -/
theorem carriedOut_iff_explained_nested : ∃ pool checked : JobQueueExecutorPool PolicyEnforcer Unit,
    run CheckerCall.step ((ExecutorFailurePolicy.ofAny [.maxTotalFailures 5,
      .ofAny [.maxFailuresWithin 1 ⟨2000000000⟩]]).newEnforcer,
      .cons 0 (.cons 0 (.cons 1500 (.cons 1500 (.const 1501))))) [.markFailure, .shouldHalt] =
        some (pool.failureChecker, pool.clock) ∧
    Decides pool checked ∧ CarriedOut pool checked := by
  refine ⟨{
    poolSize := 1
    queueName := "jobs"
    failureChecker := .any [.total ⟨5, 1⟩, .any [.windowed ⟨1, ⟨2000000000⟩, ⟨2000, [0]⟩⟩]]
    clock := .cons 1500 (.cons 1500 (.const 1501))
    threads := { size := 1 } }, _, rfl, rfl, ?_⟩
  refine (carriedOut_iff_explained (.ofAny [.maxTotalFailures 5, .ofAny [.maxFailuresWithin 1 ⟨2000000000⟩]])
    (.cons 0 (.cons 0 (.cons 1500 (.cons 1500 (.const 1501))))) ?_ [.markFailure, .shouldHalt] _ _ ?_ ?_).mpr ?_
  · exact .cons (by decide) (.cons (by decide) (.cons (by decide) (.cons (by decide) (Clock.runs_const _))))
  · rfl
  · rfl
  · exact .any (.passed rfl (.found rfl (.any (.found rfl .windowed))))

/-- Two failures 1999 ms apart, and a decision 2000 ms after the first: when `reason` asks again, a
millisecond later, the first failure has left the window of two seconds. -/
theorem reason_finds_nothing : ∃ pool checked after : JobQueueExecutorPool PolicyEnforcer Unit,
    run CheckerCall.step ((ExecutorFailurePolicy.ofAny [.maxFailuresWithin 1 ⟨2000000000⟩]).newEnforcer,
      .cons 0 (.cons 0 (.cons 1999 (.cons 2000 (.const 2001))))) [.markFailure, .shouldHalt] =
        some (pool.failureChecker, pool.clock) ∧
    Clock.Runs (.cons 0 (.cons 0 (.cons 1999 (.cons 2000 (.const 2001))))) ∧
    Decides pool checked ∧ ¬ CarriedOut pool checked ∧
    (onConsumerShutdown 0 false {}).exec pool = some (.error .noSuchElement, after) ∧
    after.closing = false := by
  have silent : (PolicyEnforcer.reason (.any [.windowed ⟨1, ⟨2000000000⟩, ⟨2000, [0, 1999]⟩⟩])
      (.const 2001)).1 = .error .noSuchElement := by
    simp only [PolicyEnforcer.reason, firstReason]
    rfl
  have decides : Decides (π := Unit) {
      poolSize := 1
      queueName := "jobs"
      failureChecker := .any [.windowed ⟨1, ⟨2000000000⟩, ⟨2000, [0]⟩⟩]
      clock := .cons 1999 (.cons 2000 (.const 2001))
      threads := { size := 1 }
      head := some 0
      tail := some 0
      counter := 1
      executors := [{ id := "jobs-consumer-pool-1", subscribed := true }] } _ := rfl
  obtain ⟨kept, after, same, throws⟩ := throws_of_reason decides silent
  refine ⟨_, _, after, rfl, ?_, decides, kept, throws 0 {}, same⟩
  exact .cons (by decide) (.cons (by decide) (.cons (by decide) (.cons (by decide) (Clock.runs_const _))))

end RabbitJobQueue.Soundness.HaltDecision
