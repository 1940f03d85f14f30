import RabbitJobQueue.Model.TimedDelivery
import RabbitJobQueue.Proofs.CallbackOrder
import RabbitJobQueue.Proofs.DurationProduct
import RabbitJobQueue.Soundness.UnstartedJobs

/-! # Whether the job time limit is the configured one

The wait for a job is given in whole seconds, the queue's consumer timeout in whole milliseconds of one
and a half times the limit. The broker always waits longer than the executor. The executor, though,
waits for the configured time only if that is a whole number of seconds: any other limit is cut down to
one, and jobs between the two are killed within their time.
-/

namespace RabbitJobQueue.Soundness.JobTimeLimit

open Machine Model Model.JobQueue Model.TimedDelivery

private theorem waitLimit_le (jobTimeout : Duration) :
    waitLimit jobTimeout ≤ jobTimeout.inWholeNanoseconds := by
  unfold waitLimit secondsToNanos Duration.inWholeSeconds Duration.toLong Duration.maxMillis maxLong
  split <;> omega

/-- The executor waits for the whole limit if the conversion to seconds loses nothing. -/
private theorem waitLimit_eq_iff (jobTimeout : Duration) :
    waitLimit jobTimeout = jobTimeout.inWholeNanoseconds ↔
      1000000000 ∣ jobTimeout.inWholeNanoseconds ∧ jobTimeout.inWholeNanoseconds < 2 ^ 63 := by
  unfold waitLimit secondsToNanos Duration.inWholeSeconds Duration.toLong Duration.maxMillis maxLong
  split <;> omega

variable {ε β δ η : Type} [ExecutorFailureEnforcer ε] {fromJson : β → Except Throwable δ}
  {queue next final : JobQueue ε β δ η} {ref : DeliveryRef} {delivery : Delivery β δ} {dispatch : δ}
  {actions : List (JobQueueAction β η)}

/-- A callback that executes no statement leaves its delivery alone. -/
theorem awaiting_of_run (read : queue.deliveries[ref]? = some delivery)
    (phase : delivery.phase = .awaiting dispatch) (others : ∀ any, .callback ref any ∉ actions)
    (ran : run (step fromJson) queue actions = some next) : next.deliveries[ref]? = some delivery := by
  have elsewhere : ∀ action ∈ actions, ∀ any, action ≠ .callback ref any := by
    rintro action member any rfl
    exact others any member
  refine run_invariant_along (motive := fun queue => queue.deliveries[ref]? = some delivery) ?_ read
    (.of_forall elsewhere) ran
  · intro source action target known other stepped
    obtain ⟨after, readAfter, -, rfl | ⟨asked, advance⟩⟩ := (step_deliveries stepped).kept known
    · exact readAfter
    · cases action with
      | callback moved any => cases asked; exact absurd rfl (other any)
      | handleException moved => cases asked; simp [step, known, phase] at stepped
      | _ => contradiction

/-- The wait returns and the delivery is acknowledged. -/
theorem answered_statements (read : queue.deliveries[ref]? = some delivery)
    (phase : delivery.phase = .awaiting dispatch) (answer : queue.answer delivery = some .normal)
    (opened : queue.pool.isOpen delivery.channel = true) :
    ∃ final, run (step fromJson) queue (statements ref .answered) = some final ∧
      final.deliveries[ref]? =
        some { delivery with phase := .returned .acknowledged, acks := delivery.acks + 1 } := by
  have waited : step fromJson queue (.callback ref .answered) = some (queue.setPhase ref .completed) := by
    simp only [step, read, Option.bind_some, callback, phase, answer]
  have completed : (queue.setPhase ref .completed).deliveries[ref]? =
      some { delivery with phase := .completed } := getElem?_modify_self read
  obtain ⟨final, acked, -, known⟩ := ack_statement fromJson completed opened .answered
    (.returned .acknowledged) (.inl ⟨rfl, rfl⟩)
  exact ⟨final, run_cons_eq_some.mpr ⟨_, waited, run_singleton.trans acked⟩, known⟩

/-- The wait times out: the job is cancelled, the delivery acknowledged, and `timeoutFn` called. -/
theorem expired_statements {task : ℕ} (read : queue.deliveries[ref]? = some delivery)
    (phase : delivery.phase = .awaiting dispatch) (future : delivery.future = some task)
    (answer : queue.answer delivery = some .pending)
    (opened : queue.pool.isOpen delivery.channel = true) :
    ∃ final, run (step fromJson) queue (statements ref .expired) = some final ∧
      final.deliveries[ref]? = some { delivery with
        phase := .returned .timedOut
        acks := delivery.acks + 1
        timedOut := true
        cancelRequested := true
        timeoutCalls := delivery.timeoutCalls ++ [dispatch] } := by
  have timedOut : step fromJson queue (.callback ref .expired) =
      some (queue.setDelivery ref ({ · with phase := .timedOut dispatch, timedOut := true })) := by
    simp only [step, read, Option.bind_some, callback, phase, answer]
  have late : (queue.setDelivery ref
      ({ · with phase := .timedOut dispatch, timedOut := true })).deliveries[ref]? =
      some { delivery with phase := .timedOut dispatch, timedOut := true } := getElem?_modify_self read
  obtain ⟨cancelled, cancel, readCancelled, executors⟩ := cancel_statement fromJson late rfl future
  have still : cancelled.pool.isOpen delivery.channel = true := by
    rw [JobQueueExecutorPool.isOpen, executors]
    exact opened
  obtain ⟨acked, ack, -, readAcked⟩ := ack_statement fromJson readCancelled still .expired
    (.ackTried dispatch) (.inr ⟨dispatch, rfl, rfl⟩)
  refine ⟨acked.setDelivery ref ({ · with
    phase := .returned .timedOut, timeoutCalls := delivery.timeoutCalls ++ [dispatch] }), ?_, ?_⟩
  · refine run_cons_eq_some.mpr ⟨_, timedOut, run_cons_eq_some.mpr ⟨_, cancel, ?_⟩⟩
    refine run_cons_eq_some.mpr ⟨_, ack, run_singleton.trans ?_⟩
    simp only [step, readAcked, Option.bind_some, callback]
  · exact getElem?_modify_self readAcked

/-- The job returned `duration` after its submission and its callback ended the wait at `time`: below
the limit it is acknowledged and nothing else; beyond it the callback has timed out, not before the
limit, and before the broker does. -/
structure Honoured (config : QueueConfig) (duration : Duration) (time : ℕ) (after : Delivery β δ) :
    Prop where
  normal : duration.inWholeNanoseconds < config.maxJobExecutionTime.inWholeNanoseconds →
    after.phase = .returned .acknowledged ∧ after.acks = 1 ∧ after.cancelRequested = false ∧
      after.timeoutCalls = []
  killed : config.maxJobExecutionTime.inWholeNanoseconds < duration.inWholeNanoseconds →
    after.timedOut = true ∧ config.maxJobExecutionTime.inWholeNanoseconds ≤ time ∧
      time < exactAckTimeout config.maxJobExecutionTime ∧ time < ackTimeout config

/-- How a callback that waits can end, in terms of its delivery. -/
private theorem Ends.cases {jobTimeout duration : Duration} {wait : Wait} {time : ℕ}
    (ends : Ends fromJson jobTimeout duration queue ref delivery.channel wait time final)
    (read : queue.deliveries[ref]? = some delivery) (phase : delivery.phase = .awaiting dispatch) :
    ∃ after, final.deliveries[ref]? = some after ∧ after.phase.isOver = true ∧
      after.acks = delivery.acks + 1 ∧
      ((duration.inWholeNanoseconds ≤ waitLimit jobTimeout ∧ time = duration.inWholeNanoseconds ∧
        after = { delivery with phase := .returned .acknowledged, acks := delivery.acks + 1 }) ∨
      (waitLimit jobTimeout ≤ duration.inWholeNanoseconds ∧ time = waitLimit jobTimeout ∧
        after.timedOut = true)) := by
  obtain ⟨get, others, woken, waited, apart, opened, answer, ran⟩ := ends
  have still := awaiting_of_run read phase apart waited
  have answered := answer delivery still
  cases get with
  | answered inTime =>
    obtain ⟨last, again, known⟩ := answered_statements still phase answered opened
    cases ran.symm.trans again
    exact ⟨_, known, rfl, rfl, .inl ⟨inTime, rfl, rfl⟩⟩
  | expired late =>
    obtain ⟨task, future, -⟩ := Option.bind_eq_some_iff.mp (Option.map_eq_some_iff.mp answered).choose_spec.1
    obtain ⟨last, again, known⟩ := expired_statements still phase future answered opened
    cases ran.symm.trans again
    exact ⟨_, known, rfl, rfl, .inr ⟨late, rfl, rfl⟩⟩

/-- A callback is a request of the serial server that an executor is in time: while it waits it has its
channel to itself, and it ends after its occupancy, with the acknowledgement. -/
theorem callback_serves {jobTimeout duration : Duration} {wait : Wait} {time : ℕ}
    {pool : JobQueueExecutorPool ε (Job δ η)} {waiting : List β}
    (ran : run (step fromJson) (starting pool waiting) actions = some queue)
    (read : queue.deliveries[ref]? = some delivery) (phase : delivery.phase = .awaiting dispatch)
    (ends : Ends fromJson jobTimeout duration queue ref delivery.channel wait time final) :
    (∀ other known, queue.deliveries[other]? = some known → known.channel = delivery.channel →
      (other < ref → known.phase.isOver = true) ∧ (ref < other → known.phase = .received)) ∧
    time = TimedExecutor.occupancy jobTimeout duration ∧
    ∃ after, final.deliveries[ref]? = some after ∧ after.phase.isOver = true ∧
      after.acks = delivery.acks + 1 := by
  obtain ⟨after, readAfter, ended, acked, outcome⟩ := Ends.cases ends read phase
  refine ⟨(inOrder_of_run ran).alone read (by rw [phase]; simp) (by rw [phase]; rfl), ?_, after,
    readAfter, ended, acked⟩
  rw [TimedExecutor.occupancy]
  rcases outcome with ⟨inTime, at', -⟩ | ⟨late, at', -⟩ <;> omega

/-- The limit is honoured for a job, however its wait ends, if and only if the limit is a whole number of
seconds that the wait can last, or the job comes back within the seconds it is cut down to. -/
theorem honoured_iff (config : QueueConfig) (duration : Duration)
    (atLeast : 1000000 ≤ config.maxJobExecutionTime.inWholeNanoseconds)
    (poolConfig : ExecutorPoolConfig ε) (clock : Clock) (fromJson : β → Except Throwable δ)
    (waiting : List β) (actions : List (JobQueueAction β η)) (pool : JobQueueExecutorPool ε (Job δ η))
    (constructed : JobQueueExecutorPool.new poolConfig clock = .ok pool)
    (ran : run (step fromJson) (starting pool waiting) actions = some queue)
    (read : queue.deliveries[ref]? = some delivery) (phase : delivery.phase = .awaiting dispatch)
    (pending : queue.answer delivery = some .pending)
    (opened : queue.pool.isOpen delivery.channel = true) :
    (∀ wait time final after,
      Ends fromJson config.maxJobExecutionTime duration queue ref delivery.channel wait time final →
      final.deliveries[ref]? = some after → Honoured config duration time after) ↔
    (1000000000 ∣ config.maxJobExecutionTime.inWholeNanoseconds ∧
      config.maxJobExecutionTime.inWholeNanoseconds < 2 ^ 63) ∨
    duration.inWholeNanoseconds < waitLimit config.maxJobExecutionTime ∨
    duration.inWholeNanoseconds = config.maxJobExecutionTime.inWholeNanoseconds := by
  have below := waitLimit_le config.maxJobExecutionTime
  rw [← waitLimit_eq_iff]
  constructor
  · intro honoured
    by_contra neither
    obtain ⟨task, future, -⟩ := Option.bind_eq_some_iff.mp (Option.map_eq_some_iff.mp pending).choose_spec.1
    obtain ⟨final, timedOut, known⟩ := expired_statements read phase future pending opened
    have late : waitLimit config.maxJobExecutionTime ≤ duration.inWholeNanoseconds := by omega
    have verdict := honoured .expired _ final _ ⟨.expired late, [], queue, rfl, by simp, opened,
      by rintro other same; cases read.symm.trans same; exact pending, timedOut⟩ known
    rcases Nat.lt_trichotomy duration.inWholeNanoseconds config.maxJobExecutionTime.inWholeNanoseconds with
      shorter | same | longer
    · cases (verdict.normal shorter).1
    · exact neither (.inr (.inr same))
    · have cut := (verdict.killed longer).2.1
      omega
  · intro condition wait time final after ends readAfter
    have chronicle := ((coherent_of_run (coherent_of_new constructed) ran).recorded ref delivery read).chronicle
    rw [Chronicle] at chronicle
    rw [phase] at chronicle
    obtain ⟨⟨acks, -, cancelRequested, timeoutCalls⟩, -⟩ := chronicle
    have timer := waitLimit_lt_ackTimeout atLeast
    have exactTimer := waitLimit_lt_exactAckTimeout atLeast
    obtain ⟨known, readKnown, -, -, outcome⟩ := Ends.cases ends read phase
    cases readAfter.symm.trans readKnown
    rcases outcome with ⟨inTime, -, rfl⟩ | ⟨late, rfl, timedOut⟩
    · refine ⟨fun _ => ⟨rfl, congrArg (· + 1) acks, cancelRequested, timeoutCalls⟩, fun longer => ?_⟩
      omega
    · refine ⟨fun shorter => ?_, fun longer => ⟨timedOut, ?_, exactTimer, ?_⟩⟩
      · omega
      · omega
      · exact timer

/-- A limit of two seconds, and a job of one and a half. -/
theorem honoured_iff_two_seconds :
    ∃ (queue : JobQueue MaxFailureEnforcer ℕ ℕ ℕ) (delivery : Delivery ℕ ℕ),
      run (step .ok) (starting UnstartedJobs.onePool [1]) UnstartedJobs.firstJob = some queue ∧
      queue.deliveries[0]? = some delivery ∧
      ((∀ wait time final after,
        Ends .ok (.seconds 2) ⟨1500000000⟩ queue 0 delivery.channel wait time final →
        final.deliveries[0]? = some after →
        Honoured { maxJobExecutionTime := .seconds 2 } ⟨1500000000⟩ time after) ↔
      (1000000000 ∣ (Duration.seconds 2).inWholeNanoseconds ∧
        (Duration.seconds 2).inWholeNanoseconds < 2 ^ 63) ∨
      1500000000 < waitLimit (.seconds 2) ∨ 1500000000 = (Duration.seconds 2).inWholeNanoseconds) :=
  ⟨_, _, rfl, rfl, honoured_iff { maxJobExecutionTime := .seconds 2 } ⟨1500000000⟩ (by decide)
    ⟨"jobs", 1, maxTotalFailures 5⟩ (Stream'.const 0) .ok [1] UnstartedJobs.firstJob
    UnstartedJobs.onePool rfl rfl rfl rfl rfl rfl⟩

/-- With a limit of 1.9 seconds, a job that takes 1.5 is cancelled and reported after one. -/
theorem fraction_of_a_second_cut :
    ∃ (queue final : JobQueue MaxFailureEnforcer ℕ ℕ ℕ) (after : Delivery ℕ ℕ),
      run (step .ok) (starting UnstartedJobs.onePool [1]) UnstartedJobs.firstJob = some queue ∧
      Ends .ok ⟨1900000000⟩ ⟨1500000000⟩ queue 0 0 .expired 1000000000 final ∧
      final.deliveries[0]? = some after ∧ after.cancelRequested = true ∧ after.timeoutCalls = [1] ∧
      ¬ Honoured { maxJobExecutionTime := ⟨1900000000⟩ } ⟨1500000000⟩ 1000000000 after := by
  refine ⟨_, _, _, rfl, ⟨.expired (by decide), [], _, rfl, by simp, rfl, ?_, rfl⟩, rfl, rfl, rfl, ?_⟩
  · rintro delivery read
    cases read
    rfl
  · intro honoured
    cases (honoured.normal (by decide)).1

end RabbitJobQueue.Soundness.JobTimeLimit
