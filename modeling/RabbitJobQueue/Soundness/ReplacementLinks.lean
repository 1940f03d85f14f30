import RabbitJobQueue.Soundness.StopReach

/-! # Linking the replacement

`add` asserts that a list with a head has a tail. The assertion holds at every replacement exactly as
long as no consumer dies whose executor is the tail and not the head: `remove` then sets the tail to
the predecessor of the dead executor, which nothing has ever assigned.
-/

namespace RabbitJobQueue.Soundness.ReplacementLinks

open Machine Model Model.JobQueueExecutorPool StopReach

variable {ε π : Type} {pool next : JobQueueExecutorPool ε π} {event : ConsumerDeath}

/-- On a tidy list every remaining iteration of `start` finds a tail. -/
theorem startFrom_returns {answers : ℕ → ClientAnswers} (willing : ∀ i, (answers i).succeed)
    (tidy : pool.Tidy) (first remaining : ℕ) :
    ∃ next, (startFrom answers first remaining).exec pool = some (.ok (), next) := by
  induction remaining generalizing first pool with
  | zero => exact ⟨pool, rfl⟩
  | succ remaining ih =>
    have added : (addNew (answers first)).exec pool =
        some (.ok (), (add pool.executors.length pool.withNew).2) := by
      rw [addNew_exec (willing first), ← tidy.add.1]
    obtain ⟨next, ran⟩ := ih tidy.add.2 (first + 1)
    exact ⟨next, by rw [startFrom, Effect.exec_bind_of_ok added, ran]⟩

private theorem start_returns {config : ExecutorPoolConfig ε} {clock : Clock} {answers : ℕ → ClientAnswers}
    (legal : 1 ≤ config.poolSize ∧ config.poolSize ≤ 64) (willing : ∀ i, (answers i).succeed) :
    ∃ fresh started : JobQueueExecutorPool ε π, new config clock = .ok fresh ∧
      (start answers).exec fresh = some (.ok (), started) ∧
      started.Tidy ∧ started.head ≠ none ∧ started.closing = false := by
  have constructed : ∃ fresh : JobQueueExecutorPool ε π, new config clock = .ok fresh := by
    rw [new]
    rw [if_neg (by omega), if_neg (by omega)]
    exact ⟨_, rfl⟩
  obtain ⟨fresh, constructed⟩ := constructed
  have empty : fresh.Tidy ∧ fresh.closing = false := by
    obtain ⟨-, -, rfl⟩ := new_eq_ok constructed
    exact ⟨⟨⟨by simp, by simp [nextOf], by simp⟩, by simp, by simp⟩, rfl⟩
  obtain ⟨started, ran⟩ := startFrom_returns willing empty.1 0 fresh.poolSize
  have complete : (start answers).exec fresh = some (.ok (), started) := by
    rw [start, Effect.exec_get_bind, ran]
  obtain ⟨tidy, nonempty⟩ := start_tidy constructed willing complete
  have closing := (startFrom_tidy willing ran empty.1).2.1
  exact ⟨fresh, started, constructed, complete, tidy, nonempty, closing.trans empty.2⟩

/-- `add` leaves the new executor as `init` subscribed it, but for the links. -/
theorem add_newest (pool : JobQueueExecutorPool ε π) :
    ∃ executor, (add pool.executors.length pool.withNew).2.executors[pool.executors.length]? =
      some executor ∧ executor.subscribed = true ∧ executor.stopCalls = 0 ∧ executor.isLive = true := by
  have view : ((add pool.executors.length pool.withNew).2.executors.map
      unlinked)[pool.executors.length]? =
      some { id := s!"{pool.queueName}-consumer-pool-{pool.counter + 1}", subscribed := true } := by
    rw [add_unlinked]
    simp [withNew, unlinked]
  rw [List.getElem?_map] at view
  obtain ⟨executor, read, same⟩ := Option.map_eq_some_iff.mp view
  exact ⟨executor, read, congrArg (·.subscribed) same, congrArg (·.stopCalls) same,
    congrArg (·.isLive) same⟩

/-- An executor that `add` has accepted is on the list. -/
theorem add_reaches (tidy : pool.Tidy) :
    (add pool.executors.length pool.withNew).2.executors.length = pool.executors.length + 1 ∧
      (add pool.executors.length pool.withNew).2.Reaches pool.executors.length ∧
      (add pool.executors.length pool.withNew).2.isLive pool.executors.length = true := by
  obtain ⟨executor, read, subscribed, never, live⟩ := add_newest pool
  refine ⟨?_, ?_, isLive_iff.mpr ⟨executor, read, live⟩⟩
  · have length := congrArg List.length (add_unlinked pool.executors.length pool.withNew)
    simpa [withNew] using length
  · rcases tidy.add.2.accounted _ executor read subscribed with stopped | reached
    · rw [never] at stopped
      contradiction
    · exact reached

variable [ExecutorFailureEnforcer ε]

/-- The callback of this death finds a tail if it finds a head, ends without an exception, and leaves
the new executor consuming and on the list. -/
def Replaced (pool : JobQueueExecutorPool ε π) (event : ConsumerDeath) : Prop :=
  ∃ checked next, Passes pool event checked ∧
    (onConsumerShutdown event.ref event.cause.isInitiatedByApplication event.answers).exec
      (pool.kill event.ref event.cause) = some (.ok (), next) ∧
    ((checked.dropped event.ref).head ≠ none → (checked.dropped event.ref).tail ≠ none) ∧
    next.executors.length = pool.executors.length + 1 ∧
    next.Reaches pool.executors.length ∧ next.isLive pool.executors.length = true

/-- What holds between two callbacks as long as no tail has been lost. -/
structure Whole (pool : JobQueueExecutorPool ε π) : Prop where
  tidy : pool.Tidy
  nonempty : pool.head ≠ none
  opened : pool.closing = false

/-- On a whole list the callback replaces the executor unless that one is the tail and not the head. -/
theorem replaced_iff (whole : Whole pool) (willing : event.answers.succeed)
    {checked : JobQueueExecutorPool ε π} (passes : Passes pool event checked) :
    Replaced pool event ↔ ¬ pool.TailRemoval event.ref := by
  have tidy := whole.tidy.of_sameList (sameList_kill passes.same)
  have opened : checked.closing = false := passes.same.closing.trans whole.opened
  have same := sameList_kill passes.same
  have callback := callback_of_passes passes
  rw [replace_of_open willing opened] at callback
  have length : (checked.dropped event.ref).executors.length = pool.executors.length := by
    rw [tidy.toShape.dropped_executors, List.length_modify, same.length]
  constructor
  · rintro ⟨-, next, -, ran, -⟩ ⟨tail, head⟩
    -- the head survives and the tail has no predecessor to fall back on
    have listed : (checked.dropped event.ref).head ≠ none := by
      rw [tidy.toShape.dropped_head, if_neg (by rwa [same.head]), same.head]
      exact whole.nonempty
    have lost : (checked.dropped event.ref).tail = none := by
      rw [tidy.toShape.dropped_tail, if_pos ⟨by rwa [same.head], same.tail.trans tail⟩]
    rw [callback, add_of_refusal listed lost] at ran
    cases ran
  · intro kept
    have stays : ¬ checked.TailRemoval event.ref := by
      rw [TailRemoval, same.tail, same.head]
      exact kept
    have dropped := tidy.dropped stays
    have linked := add_reaches dropped
    rw [length] at linked
    refine ⟨checked, _, passes, callback.trans ?_, ?_, linked⟩
    · rw [length, ← length, ← dropped.add.1]
    · intro start
      obtain ⟨last, tail, -⟩ := dropped.tailLast start
      rw [tail]
      exact Option.some_ne_none last

/-- A replaced executor leaves the list whole. -/
theorem Whole.death (whole : Whole pool) (willing : event.answers.succeed)
    {checked : JobQueueExecutorPool ε π} (passes : Passes pool event checked)
    (kept : ¬ pool.TailRemoval event.ref) (died : pool.death event = some next) : Whole next := by
  have opened : next.closing = false := by
    obtain ⟨result, ran⟩ := death_of_passes died passes
    rw [replace_closing willing ran, passes.same.closing]
    exact whole.opened
  have after := tidy_death ⟨whole.tidy, whole.nonempty⟩ (fun loss => kept loss.2) willing died opened
  exact ⟨after.1, after.2, opened⟩

/-- Over a run, every callback replaces its executor exactly if none of them meets the tail. -/
theorem along_replaced_iff {deaths : List ConsumerDeath} (whole : Whole pool)
    (granted : ∀ event ∈ deaths, event.answers.succeed)
    (passing : Along death (fun source event => ∃ checked, Passes source event checked) pool deaths)
    (ran : run death pool deaths = some next) :
    Along death Replaced pool deaths ↔
      Along death (fun source event => ¬ source.TailRemoval event.ref) pool deaths := by
  induction deaths generalizing pool with
  | nil => exact iff_of_true .nil .nil
  | cons event rest ih =>
    obtain ⟨willing, later⟩ := List.forall_mem_cons.mp granted
    obtain ⟨middle, died, continued⟩ := run_cons_eq_some.mp ran
    obtain ⟨checked, passes⟩ := passing.head
    rw [Along.cons_iff died, Along.cons_iff died, replaced_iff whole willing passes]
    apply and_congr_right
    intro kept
    exact ih (whole.death willing passes kept died) later (passing.tail died) continued

/-- `start` returns, and from then on every shutdown callback links its replacement without an
exception if and only if no consumer dies whose executor is the tail and not the head. -/
theorem replaced_iff_tail_spared (config : ExecutorPoolConfig ε) (clock : Clock)
    (answers : ℕ → ClientAnswers) (legal : 1 ≤ config.poolSize ∧ config.poolSize ≤ 64)
    (willing : ∀ i, (answers i).succeed) :
    ∃ fresh started : JobQueueExecutorPool ε π, new config clock = .ok fresh ∧
      (start answers).exec fresh = some (.ok (), started) ∧
      ∀ deaths final, (∀ event ∈ deaths, event.answers.succeed) →
        Along death (fun source event => ∃ checked, Passes source event checked) started deaths →
        run death started deaths = some final →
        (Along death Replaced started deaths ↔
          Along death (fun source event => ¬ source.TailRemoval event.ref) started deaths) := by
  obtain ⟨fresh, started, constructed, complete, tidy, nonempty, opened⟩ :=
    start_returns legal willing
  refine ⟨fresh, started, constructed, complete, ?_⟩
  intro deaths final granted passing ran
  exact along_replaced_iff ⟨tidy, nonempty, opened⟩ granted passing ran

/-- Two workers, and the first of them dies. -/
theorem replaced_iff_tail_spared_head :
    ∃ started final : JobQueueExecutorPool MaxFailureEnforcer Unit,
      run death started [⟨0, .broker, {}⟩] = some final ∧
      (Along death Replaced started [⟨0, .broker, {}⟩] ↔
        Along death (fun source event => ¬ source.TailRemoval event.ref) started
          [⟨0, .broker, {}⟩]) := by
  obtain ⟨fresh, started, constructed, complete, replaced⟩ :=
    replaced_iff_tail_spared (π := Unit) ⟨"jobs", 2, maxTotalFailures 5⟩ (Stream'.const 0)
      (fun _ => {}) (by decide) (fun _ => ⟨rfl, rfl⟩)
  cases Except.ok.inj constructed
  cases Option.some.inj complete
  refine ⟨_, _, rfl, replaced [⟨0, .broker, {}⟩] _ (by simp [ClientAnswers.succeed]) ?_ rfl⟩
  exact (Along.cons_iff rfl).mpr ⟨⟨_, .inr ⟨rfl, rfl⟩⟩, .nil⟩

/-- Two workers, and the second of them dies: `tail!!` throws out of the callback. -/
theorem second_of_two_not_replaced :
    ∃ fresh started final : JobQueueExecutorPool MaxFailureEnforcer Unit,
      new ⟨"jobs", 2, maxTotalFailures 5⟩ (Stream'.const 0) = .ok fresh ∧
      (start fun _ => {}).exec fresh = some (.ok (), started) ∧
      Along death (fun source event => ∃ checked, Passes source event checked) started
        [⟨1, .broker, {}⟩] ∧
      run death started [⟨1, .broker, {}⟩] = some final ∧
      (onConsumerShutdown 1 false {}).exec (started.kill 1 .broker) =
        some (.error .nullPointer, final) ∧
      ¬ Along death Replaced started [⟨1, .broker, {}⟩] := by
  refine ⟨_, _, _, rfl, rfl, (Along.cons_iff rfl).mpr ⟨⟨_, .inr ⟨rfl, rfl⟩⟩, .nil⟩, rfl, rfl, ?_⟩
  intro along
  obtain ⟨checked, next, -, ran, -⟩ := along.head
  cases Option.some.inj ran

end RabbitJobQueue.Soundness.ReplacementLinks
