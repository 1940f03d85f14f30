import RabbitJobQueue.Proofs.DeliveryHistory

/-! # Whether a job can be discarded unstarted

On the normal path an acknowledged job has come back, so it has been on a thread. On the timeout
path the executor only knows that the time is over: a job that is still queued, behind jobs that
keep their threads, is cancelled and acknowledged like any other. No job is discarded unstarted
exactly as long as `future.cancel` finds every job on a thread already.
-/

namespace RabbitJobQueue.Soundness.UnstartedJobs

open Machine Model Model.JobQueue

variable {ε β δ η : Type} {fromJson : β → Except Throwable δ} {queue middle next : JobQueue ε β δ η}
  {ref : DeliveryRef} {delivery after : Delivery β δ} {action : JobQueueAction β η}

/-- `handlers.execute` has begun running for the delivery. -/
def Begun (queue : JobQueue ε β δ η) (ref : DeliveryRef) (delivery : Delivery β δ) : Prop :=
  ∃ found, IsTask queue ref delivery found ∧ found.payload.hasBegun = true

/-- Every job message that has been acknowledged is one whose job has begun. -/
def AckedBegun (queue : JobQueue ε β δ η) : Prop :=
  ∀ (ref : DeliveryRef) (delivery : Delivery β δ), queue.deliveries[ref]? = some delivery →
    delivery.acks ≠ 0 → Begun queue ref delivery

/-- If the step calls `future.cancel` while the channel is open, it is for a job that has begun. -/
def CancelsBegun (queue : JobQueue ε β δ η) (action : JobQueueAction β η) : Prop :=
  ∀ (ref : DeliveryRef) (delivery : Delivery β δ) (dispatch : δ), moves action = some ref →
    queue.deliveries[ref]? = some delivery → delivery.phase = .timedOut dispatch →
    queue.pool.isOpen delivery.channel = true → Begun queue ref delivery

/-- A job that has begun stays begun. -/
theorem Begun.step (step : TaskStep queue next) (begun : Begun queue ref delivery)
    (same : after.future = delivery.future) : Begun next ref after := by
  obtain ⟨found, ⟨task, future, read, own⟩, started⟩ := begun
  obtain ⟨later, readLater, ages⟩ := step.ages read
  exact ⟨later, ⟨task, same.trans future, readLater, ages.delivery.trans own⟩, ages.begun started⟩

/-- A job that has come back had begun. -/
theorem begun_of_returned (coherent : Coherent queue) (answered : Answered queue ref delivery .normal) :
    Begun queue ref delivery := by
  obtain ⟨found, isTask, normal⟩ := answered
  have ⟨task, _, read, _⟩ := isTask
  obtain ⟨-, execution, carried, -⟩ := (coherent.sound found (List.mem_of_getElem? read)).normal normal
  exact ⟨found, isTask, by rw [Job.hasBegun, carried]; rfl⟩

/-- Nothing has been acknowledged for an unstarted job, and nothing is about to be. -/
def Started (queue : JobQueue ε β δ η) (ref : DeliveryRef) (delivery : Delivery β δ) : Prop :=
  (delivery.acks ≠ 0 → Begun queue ref delivery) ∧
    ∀ dispatch, delivery.phase = .cancelled dispatch → queue.pool.isOpen delivery.channel = true →
      Begun queue ref delivery

private theorem Started.step (step : TaskStep queue next) (older : Older queue next)
    (recorded : Recorded queue ref delivery) (started : Started queue ref delivery) :
    Started next ref delivery :=
  ⟨fun acked => (started.1 acked).step step rfl, fun dispatch phase opened =>
    (started.2 dispatch phase (older.isOpen opened recorded.inside)).step step rfl⟩

/-- Every acknowledgement of a delivery that is started finds the job begun. -/
theorem Advance.acked (advance : Advance fromJson queue next ref delivery after)
    (read : queue.deliveries[ref]? = some delivery) (tasks : TaskStep queue next)
    (coherent : Coherent queue) (started : Started queue ref delivery) (acked : after.acks ≠ 0) :
    Begun next ref after := by
  have chronicle := (coherent.recorded ref delivery read).chronicle
  rw [Chronicle] at chronicle
  cases advance with
  | ack phase opened =>
    rw [phase] at chronicle
    exact (begun_of_returned coherent chronicle.2).step tasks rfl
  | lateAck phase opened => exact (started.2 _ phase opened).step tasks rfl
  | submit phase submitted =>
    rw [phase] at chronicle
    exact absurd chronicle.1.acks acked
  | _ => exact (started.1 acked).step tasks rfl

private theorem Advance.started (advance : Advance fromJson queue next ref delivery after)
    (asked : moves action = some ref) (read : queue.deliveries[ref]? = some delivery)
    (tasks : TaskStep queue next) (older : Older queue next) (coherent : Coherent queue)
    (cancels : CancelsBegun queue action) (started : Started queue ref delivery) :
    Started next ref after := by
  refine ⟨Advance.acked advance read tasks coherent started, ?_⟩
  cases advance with
  | cancel phase =>
    intro _ _ opened
    have recorded := coherent.recorded ref delivery read
    exact (cancels ref delivery _ asked read phase (older.isOpen opened recorded.inside)).step tasks rfl
  | _ => simp

/-- Every delivery of the queue is started. -/
def AllStarted (queue : JobQueue ε β δ η) : Prop :=
  ∀ (ref : DeliveryRef) (delivery : Delivery β δ), queue.deliveries[ref]? = some delivery →
    Started queue ref delivery

section Steps

variable [ExecutorFailureEnforcer ε] (coherent : Coherent queue) (started : AllStarted queue)
include coherent started

private theorem allStarted_step (cancels : CancelsBegun queue action)
    (stepped : step fromJson queue action = some next) : AllStarted next := by
  intro ref delivery read
  have tasks := step_tasks stepped
  have older := step_older stepped
  cases (step_deliveries stepped).origin read with
  | same old => exact (started ref delivery old).step tasks older (coherent.recorded ref delivery old)
  | advanced before asked known advance =>
    exact Advance.started advance asked known tasks older coherent cancels (started ref before known)
  | delivered ex body live fresh =>
    subst fresh
    exact ⟨fun acked => absurd rfl acked, by simp⟩

/-- One step further, whatever it is, nothing has been acknowledged unstarted yet. -/
theorem ackedBegun_step (stepped : step fromJson queue action = some next) : AckedBegun next := by
  intro ref delivery read acked
  have tasks := step_tasks stepped
  cases (step_deliveries stepped).origin read with
  | same old => exact ((started ref delivery old).1 acked).step tasks rfl
  | advanced before asked known advance =>
    exact Advance.acked advance known tasks coherent (started ref before known) acked
  | delivered ex body live fresh =>
    subst fresh
    exact absurd rfl acked

end Steps

section Exactness

variable [ExecutorFailureEnforcer ε] {dispatch : δ}

/-- The statement `future.cancel(true)`, seen from the delivery. -/
theorem cancel_step (read : queue.deliveries[ref]? = some delivery)
    (phase : delivery.phase = .timedOut dispatch) (submitted : Submitted queue ref delivery)
    (asked : moves action = some ref) (stepped : step fromJson queue action = some next) :
    next.pool.executors = queue.pool.executors ∧
    next.deliveries[ref]? = some { delivery with phase := .cancelled dispatch, cancelRequested := true } ∧
    (Begun next ref { delivery with phase := .cancelled dispatch, cancelRequested := true } →
      Begun queue ref delivery) := by
  obtain ⟨found, task, future, known, own⟩ := submitted
  cases action with
  | callback other wait =>
    cases asked
    simp only [step, read, Option.bind_some, callback, phase, future, Option.map_some,
      Option.some.injEq] at stepped
    subst stepped
    refine ⟨rfl, getElem?_modify_self read, ?_⟩
    rintro ⟨job, ⟨index, same, readJob, -⟩, begun⟩
    cases future.symm.trans same
    cases (getElem?_modify_self known).symm.trans readJob
    exact ⟨found, ⟨task, future, known, own⟩, by rwa [PoolTask.settle_payload] at begun⟩
  | handleException other =>
    cases asked
    simp [step, read, phase] at stepped
  | _ => contradiction

/-- What cancelling an unstarted job on an open channel comes to: it is acknowledged at the next
statement, and has not begun. -/
theorem acked_unstarted (coherent : Coherent queue)
    (stepped : step fromJson queue action = some middle) (cancels : ¬ CancelsBegun queue action) :
    ∃ ref next, step fromJson middle (.callback ref .answered) = some next ∧ ¬ AckedBegun next := by
  rw [CancelsBegun] at cancels
  push Not at cancels
  obtain ⟨ref, delivery, dispatch, asked, read, phase, opened, unstarted⟩ := cancels
  have chronicle := (coherent.recorded ref delivery read).chronicle
  rw [Chronicle] at chronicle
  rw [phase] at chronicle
  obtain ⟨executors, cancelled, still⟩ := cancel_step read phase chronicle.2.2.2 asked stepped
  have open' : middle.pool.isOpen delivery.channel = true := by
    rw [JobQueueExecutorPool.isOpen, executors, ← JobQueueExecutorPool.isOpen, opened]
  obtain ⟨next, acks, tasks, acked⟩ := ack_statement fromJson cancelled open' .answered
    (.ackTried dispatch) (.inr ⟨dispatch, rfl, rfl⟩)
  refine ⟨ref, next, acks, fun begun => unstarted (still ?_)⟩
  obtain ⟨found, ⟨task, future, known, own⟩, started⟩ := begun ref _ acked (Nat.succ_ne_zero _)
  exact ⟨found, ⟨task, future, tasks ▸ known, own⟩, started⟩

end Exactness

/-- Nothing has been acknowledged unstarted, and the next statement of no callback would. -/
def Safe (fromJson : β → Except Throwable δ) [ExecutorFailureEnforcer ε] (queue : JobQueue ε β δ η) :
    Prop :=
  AckedBegun queue ∧ ∀ (ref : DeliveryRef) (wait : Wait) (next : JobQueue ε β δ η),
    step fromJson queue (.callback ref wait) = some next → AckedBegun next

/-- A run is safe in all its states if and only if it cancels, while the channel is open, only jobs
that have begun. -/
theorem safe_iff_cancelsBegun [ExecutorFailureEnforcer ε] (config : ExecutorPoolConfig ε)
    (clock : Clock) (fromJson : β → Except Throwable δ) (waiting : List β)
    (actions : List (JobQueueAction β η)) (pool : JobQueueExecutorPool ε (Job δ η))
    (constructed : JobQueueExecutorPool.new config clock = .ok pool)
    (ran : run (step fromJson) (starting pool waiting) actions = some queue) :
    (∀ before after reached, actions = before ++ after →
      run (step fromJson) (starting pool waiting) before = some reached → Safe fromJson reached) ↔
    Along (step fromJson) CancelsBegun (starting pool waiting) actions := by
  have initial : Coherent (starting (β := β) (η := η) pool waiting) := coherent_of_new constructed
  constructor
  · rintro safe before action after middle rfl reached
    by_contra cancels
    obtain ⟨source, found, continued⟩ := run_append_eq_some.mp ran
    cases reached.symm.trans found
    obtain ⟨target, stepped, -⟩ := run_cons_eq_some.mp continued
    have coherent := coherent_of_run initial reached
    obtain ⟨ref, next, acks, violated⟩ := acked_unstarted coherent stepped cancels
    exact violated ((safe (before ++ [action]) after target (by simp) (run_snoc reached stepped)).2 ref
      .answered next acks)
  · rintro along before after reached rfl ran
    have started : Coherent reached ∧ AllStarted reached := by
      refine run_invariant_along (motive := fun queue => Coherent queue ∧ AllStarted queue) ?_
        ⟨initial, by simp [AllStarted, starting]⟩ along.left ran
      rintro source action target ⟨coherent, started⟩ cancels stepped
      exact ⟨coherent_step coherent stepped, allStarted_step coherent started cancels stepped⟩
    exact ⟨fun ref delivery read => (started.2 ref delivery read).1,
      fun ref wait next stepped => ackedBegun_step started.1 started.2 stepped⟩

/-- A pool for one worker. -/
def onePool : JobQueueExecutorPool MaxFailureEnforcer (Job ℕ ℕ) where
  poolSize := 1
  queueName := "jobs"
  failureChecker := maxTotalFailures 5
  clock := Stream'.const 0
  threads := { size := 1 }

/-- The worker is started and a handler registered, a message is delivered, its job is submitted, and
a thread takes it and calls the handler. -/
def firstJob : List (JobQueueAction ℕ ℕ) :=
  [.pool (.exec 0 {} false), .pool (.exec 0 {} false), .pool (.exec 0 {} false), .onJob 7,
    .deliver 0 0, .callback 0 .answered, .callback 0 .answered, .callback 0 .answered, .takeTask,
    .nextHandler 0]

/-- The time limit passes, the job is cancelled and acknowledged, and `timeoutFn` is called. -/
def timeOut (ref : DeliveryRef) : List (JobQueueAction ℕ ℕ) :=
  [.callback ref .expired, .callback ref .answered, .callback ref .answered, .callback ref .answered]

/-- The first job is on a thread when it is cancelled. -/
theorem safe_iff_cancelsBegun_running : ∃ queue : JobQueue MaxFailureEnforcer ℕ ℕ ℕ,
    run (step .ok) (starting onePool [1]) (firstJob ++ timeOut 0) = some queue ∧
    queue.deliveries.map (·.acks) = [1] ∧
    ((∀ before after reached, firstJob ++ timeOut 0 = before ++ after →
      run (step .ok) (starting onePool [1]) before = some reached → Safe .ok reached) ↔
    Along (step .ok) CancelsBegun (starting onePool [1]) (firstJob ++ timeOut 0)) :=
  ⟨_, rfl, rfl, safe_iff_cancelsBegun ⟨"jobs", 1, maxTotalFailures 5⟩ (Stream'.const 0) .ok [1]
    (firstJob ++ timeOut 0) onePool rfl rfl⟩

/-- The handler of the first job ignores its interruption and keeps the only thread; the second job
is cancelled and acknowledged in the thread pool's queue. -/
theorem second_job_discarded :
    ¬ ∀ (actions : List (JobQueueAction ℕ ℕ)) (queue : JobQueue MaxFailureEnforcer ℕ ℕ ℕ),
      run (step .ok) (starting onePool [1, 2]) actions = some queue → AckedBegun queue := by
  intro claim
  obtain ⟨found, ⟨task, future, read, -⟩, begun⟩ := claim (firstJob ++ timeOut 0 ++
    [.deliver 0 0, .callback 1 .answered, .callback 1 .answered, .callback 1 .answered] ++ timeOut 1)
    _ rfl 1 _ rfl (by decide)
  cases future
  cases read
  contradiction

end RabbitJobQueue.Soundness.UnstartedJobs
