import RabbitJobQueue.Proofs.DurationProduct

/-! # Whether the broker's ack timeout can be tripped

The timeout the queue is declared with allows for one job, and counts from the delivery. What a message
waits for, though, is every message delivered before it on the same channel, and their number is not
limited. All messages are acknowledged in time exactly if, for any two of them, the jobs from the first
to the second fit into the time between the delivery of the first and the deadline of the second.
-/

namespace RabbitJobQueue.Soundness.AckDeadline

open Machine Model

/-- In this state, and however it goes on without further deliveries, no delivery has been acknowledged
too late, and none is overdue. -/
def NeverLate (config : QueueConfig) (executor : TimedExecutor) : Prop :=
  ∀ (actions : List TimedAction) (next : TimedExecutor), (∀ duration, .arrive duration ∉ actions) →
    run (TimedExecutor.step config) executor actions = some next →
    SerialServer.InTime (exactAckTimeout config.maxJobExecutionTime) next

/-- The jobs of a stretch of the deliveries, taken together; no wait is longer than the largest `Long`. -/
def totalTime (deliveries : List (Request Duration)) : ℕ :=
  (deliveries.map fun request => min request.payload.inWholeNanoseconds maxLong).sum

/-- A job below the limit occupies the executor as long as it runs. -/
private theorem occupancy_of_lt {seconds : ℕ} {duration : Duration}
    (shorter : duration.inWholeNanoseconds < (Duration.seconds seconds).inWholeNanoseconds) :
    TimedExecutor.occupancy (.seconds seconds) duration = min duration.inWholeNanoseconds maxLong := by
  unfold Duration.seconds at *
  unfold TimedExecutor.occupancy waitLimit secondsToNanos Duration.inWholeSeconds Duration.toLong maxLong
    Duration.maxMillis
  dsimp only at *
  split <;> omega

/-- For a limit of whole seconds and jobs that stay below it: every delivery is acknowledged in time if
and only if the jobs between any two deliveries fit in. -/
theorem neverLate_iff_fits (config : QueueConfig) (seconds : ℕ)
    (limit : config.maxJobExecutionTime = .seconds seconds) (actions : List TimedAction)
    (executor : TimedExecutor)
    (shorter : ∀ duration, .arrive duration ∈ actions →
      duration.inWholeNanoseconds < (Duration.seconds seconds).inWholeNanoseconds)
    (ran : run (TimedExecutor.step config) {} actions = some executor) :
    (NeverLate config executor ↔ ∀ (i j : ℕ) (first last : Request Duration), i ≤ j →
      executor.arrived[i]? = some first → executor.arrived[j]? = some last →
      2 * (first.arrival + totalTime ((executor.arrived.take (j + 1)).drop i)) ≤
        2 * last.arrival + 3 * (Duration.seconds seconds).inWholeNanoseconds) ∧
    (seconds < 2 ^ 30 → ackTimeout config = exactAckTimeout config.maxJobExecutionTime) := by
  refine ⟨?_, ackTimeout_seconds limit⟩
  have occupied (stretch : List (Request Duration)) (within : ∀ request ∈ stretch, request ∈ executor.arrived) :
      SerialServer.work (TimedExecutor.occupancy config.maxJobExecutionTime) stretch = totalTime stretch := by
    rw [SerialServer.work, totalTime, List.map_congr_left]
    intro request member
    rw [limit]
    exact occupancy_of_lt (shorter _ (SerialServer.arrive_mem_of_run ran (within request member)))
  have deadline : 2 * exactAckTimeout config.maxJobExecutionTime =
      3 * (Duration.seconds seconds).inWholeNanoseconds := by
    rw [limit, exactAckTimeout, Duration.seconds]
    dsimp only
    omega
  have timely := SerialServer.timely_of_run SerialServer.timely_initial ran
  apply (SerialServer.inTime_iff timely).trans
  refine forall_congr' fun i => forall_congr' fun j => forall_congr' fun first => forall_congr' fun last =>
    imp_congr_right fun _ => imp_congr_right fun _ => imp_congr_right fun _ => ?_
  rw [occupied _ fun request member => List.mem_of_mem_take (List.mem_of_mem_drop member), ← deadline]
  generalize exactAckTimeout config.maxJobExecutionTime = timeout
  omega

/-- Three messages with a limit of two seconds: two at once, the third when the first is done. -/
theorem neverLate_iff_fits_backlog : ∃ executor : TimedExecutor,
    run (TimedExecutor.step { maxJobExecutionTime := .seconds 2 }) {}
      [.arrive (.seconds 1), .arrive ⟨1500000000⟩, .begin, .pass 1000000000, .complete, .arrive (.seconds 1),
        .begin, .pass 1500000000, .complete] = some executor ∧
    executor.arrived.map (·.arrival) = [0, 0, 1000000000] ∧ executor.completed = [1000000000, 2500000000] ∧
    ((NeverLate { maxJobExecutionTime := .seconds 2 } executor ↔
      ∀ (i j : ℕ) (first last : Request Duration), i ≤ j →
      executor.arrived[i]? = some first → executor.arrived[j]? = some last →
      2 * (first.arrival + totalTime ((executor.arrived.take (j + 1)).drop i)) ≤
        2 * last.arrival + 3 * (Duration.seconds 2).inWholeNanoseconds) ∧
    (2 < 2 ^ 30 → ackTimeout { maxJobExecutionTime := .seconds 2 } = exactAckTimeout (.seconds 2))) := by
  refine ⟨{
    now := 2500000000
    arrived := [⟨0, .seconds 1⟩, ⟨0, ⟨1500000000⟩⟩, ⟨1000000000, .seconds 1⟩]
    completed := [1000000000, 2500000000] }, by decide +kernel, rfl, rfl, ?_⟩
  refine neverLate_iff_fits { maxJobExecutionTime := .seconds 2 } 2 rfl
    [.arrive (.seconds 1), .arrive ⟨1500000000⟩, .begin, .pass 1000000000, .complete, .arrive (.seconds 1),
      .begin, .pass 1500000000, .complete] _ ?_ (by decide +kernel)
  intro duration member
  simp only [List.mem_cons, ServerAction.arrive.injEq, reduceCtorEq, List.not_mem_nil, or_false,
    false_or] at member
  rcases member with rfl | rfl | rfl <;> decide

/-- Two messages at once, each of 1.9 seconds of two: the second is acknowledged after 3.8 seconds. -/
theorem second_message_overdue :
    ¬ ∀ (seconds : ℕ) (actions : List TimedAction) (executor : TimedExecutor), 0 < seconds →
      (∀ duration, .arrive duration ∈ actions →
        duration.inWholeNanoseconds < (Duration.seconds seconds).inWholeNanoseconds) →
      run (TimedExecutor.step { maxJobExecutionTime := .seconds seconds }) {} actions = some executor →
      NeverLate { maxJobExecutionTime := .seconds seconds } executor := by
  intro claim
  have never := claim 2 [.arrive ⟨1900000000⟩, .arrive ⟨1900000000⟩]
    { arrived := [⟨0, ⟨1900000000⟩⟩, ⟨0, ⟨1900000000⟩⟩] } (by decide) ?_ rfl
  · have late := never [.begin, .pass 1900000000, .complete, .begin, .pass 1900000000, .complete] {
      now := 3800000000
      arrived := [⟨0, ⟨1900000000⟩⟩, ⟨0, ⟨1900000000⟩⟩]
      completed := [1900000000, 3800000000] } (by simp) (by decide +kernel)
    exact absurd (late.completed 1 _ _ rfl rfl) (by decide)
  · intro duration member
    simp only [List.mem_cons, ServerAction.arrive.injEq, List.not_mem_nil, or_false, or_self] at member
    rw [member]
    decide

end RabbitJobQueue.Soundness.AckDeadline
