import RabbitJobQueue.Proofs.JobQueueSteps

/-! # The history of a delivery and of its job

The phase of a delivery determines what has happened to it so far: how often it can have been
acknowledged, whether its wait has timed out and its task been cancelled, how often `timeoutFn` has
been called for it, and what its future has answered (`Chronicle`). A future that answers `normal`
answers for an execution in which every handler has returned (`SoundTask`).
-/

namespace RabbitJobQueue.Model.JobQueue

open Machine JobQueueExecutorPool

variable {ε β δ η : Type}

/-- What time does to a task. -/
structure TaskAges (before after : PoolTask (Job δ η)) : Prop where
  delivery : after.payload.delivery = before.payload.delivery
  settled : before.future ≠ .pending → after.future = before.future
  begun : before.payload.hasBegun = true → after.payload.hasBegun = true

private theorem TaskAges.refl (task : PoolTask (Job δ η)) : TaskAges task task := ⟨rfl, fun _ => rfl, id⟩

/-- The execution a task carries has not got ahead of the handlers, and a normal answer stands for a
complete one. -/
structure SoundTask (handlers : HandlerPool η) (task : PoolTask (Job δ η)) : Prop where
  follows : ∀ execution, task.payload.execution = some execution → execution.Follows handlers
  normal : task.future = .normal →
    task.state = .ended ∧ ∃ execution, task.payload.execution = some execution ∧ execution.Complete

variable {handlers : HandlerPool η} {before after : PoolTask (Job δ η)}

private theorem TaskChange.ages (change : TaskChange handlers before after) : TaskAges before after := by
  cases change with
  | take =>
    refine ⟨?_, fun _ => PoolTask.take_future _ _, fun begun => ?_⟩ <;> unfold PoolTask.take <;> split
    · rfl
    · rfl
    · rfl
    · exact begun
  | cancel =>
    exact ⟨by rw [PoolTask.settle_payload], fun settled => by rw [PoolTask.settle_of_settled settled],
      fun begun => by rwa [PoolTask.settle_payload]⟩
  | handle execution handler running read idle turn => exact ⟨rfl, fun _ => rfl, fun _ => rfl⟩
  | finishHandler execution running read => exact ⟨rfl, fun _ => rfl, fun _ => rfl⟩
  | finish execution running read idle turn =>
    exact ⟨by rw [PoolTask.finish_payload], fun settled => by rw [PoolTask.finish_future, if_neg settled],
      fun begun => by rwa [PoolTask.finish_payload]⟩
  | throw running =>
    exact ⟨by rw [PoolTask.finish_payload], fun settled => by rw [PoolTask.finish_future, if_neg settled],
      fun begun => by rwa [PoolTask.finish_payload]⟩

/-- A task on a thread has not answered normally yet. -/
theorem SoundTask.not_normal (sound : SoundTask handlers before) (running : before.state = .running) :
    before.future ≠ .normal := by
  intro normal
  have ended := (sound.normal normal).1
  rw [running] at ended
  contradiction

private theorem TaskChange.sound (change : TaskChange handlers before after)
    (sound : SoundTask handlers before) : SoundTask handlers after := by
  cases change with
  | take =>
    rw [PoolTask.take]
    split
    · next pending =>
      refine ⟨?_, fun normal => ?_⟩
      · rintro execution ⟨⟩
        exact Execution.follows_execute handlers
      · rw [show before.future = .normal from normal] at pending
        contradiction
    · exact ⟨sound.follows, fun normal => ⟨rfl, (sound.normal normal).2⟩⟩
  | cancel =>
    refine ⟨by simpa using sound.follows, fun normal => ?_⟩
    rw [PoolTask.settle_future] at normal
    split at normal
    · contradiction
    · simpa using sound.normal normal
  | handle execution handler running read idle turn =>
    refine ⟨?_, fun normal => absurd normal (sound.not_normal running)⟩
    rintro _ ⟨⟩
    exact (sound.follows execution read).handle idle turn
  | finishHandler execution running read =>
    refine ⟨?_, fun normal => absurd normal (sound.not_normal running)⟩
    rintro _ ⟨⟩
    exact (sound.follows execution read).finishHandler
  | finish execution running read idle turn =>
    refine ⟨by simpa using sound.follows, fun _ => ⟨rfl, execution, ?_, ?_⟩⟩
    · rw [PoolTask.finish_payload, read]
    · exact (sound.follows execution read).complete idle turn
  | throw running =>
    refine ⟨by simpa using sound.follows, fun normal => ?_⟩
    rw [PoolTask.finish_future] at normal
    split at normal
    · contradiction
    · exact absurd normal (sound.not_normal running)

variable {fromJson : β → Except Throwable δ} {queue next : JobQueue ε β δ η}

theorem TaskStep.ages (step : TaskStep queue next) {task : ℕ} (read : queue.tasks[task]? = some before) :
    ∃ after, next.tasks[task]? = some after ∧ TaskAges before after := by
  cases step with
  | same same => exact ⟨before, by rw [same, read], .refl before⟩
  | submitted ref dispatch more =>
    exact ⟨before, by rw [more]; exact getElem?_alloc_of_some read, .refl before⟩
  | changed other found changed known change moved =>
    rw [moved, List.getElem?_set]
    by_cases here : other = task
    · subst here
      cases read.symm.trans known
      obtain ⟨inside, -⟩ := List.getElem?_eq_some_iff.mp read
      exact ⟨changed, by rw [if_pos rfl, if_pos inside], change.ages⟩
    · exact ⟨before, by rw [if_neg here, read], .refl before⟩

private theorem SoundTask.register {task : PoolTask (Job δ η)} (sound : SoundTask handlers task)
    {more : HandlerPool η} (grown : handlers.handlers <+: more.handlers) : SoundTask more task :=
  ⟨fun execution read => ⟨(sound.follows execution read).registered.trans grown,
    (sound.follows execution read).called⟩, sound.normal⟩

private theorem TaskStep.sound (step : TaskStep queue next)
    (grown : queue.handlers.handlers <+: next.handlers.handlers)
    (sound : ∀ task ∈ queue.tasks, SoundTask queue.handlers task) :
    ∀ task ∈ next.tasks, SoundTask next.handlers task := by
  intro task member
  cases step with
  | same same => exact (sound task (same ▸ member)).register grown
  | submitted ref dispatch more =>
    rw [more] at member
    rcases List.mem_append.mp member with old | new
    · exact (sound task old).register grown
    · rw [List.mem_singleton.mp new]
      exact ⟨by simp, by simp⟩
  | changed other found changed known change moved =>
    rw [moved] at member
    rcases List.mem_or_eq_of_mem_set member with old | rfl
    · exact (sound task old).register grown
    · exact (change.sound (sound found (List.mem_of_getElem? known))).register grown

/-- Nothing has come of the delivery yet. -/
structure Untouched (delivery : Delivery β δ) : Prop where
  acks : delivery.acks = 0
  timedOut : delivery.timedOut = false
  cancelRequested : delivery.cancelRequested = false
  timeoutCalls : delivery.timeoutCalls = []

/-- The wait for the delivery's job has timed out and the job has been cancelled. -/
structure Cancelled (delivery : Delivery β δ) : Prop where
  timedOut : delivery.timedOut = true
  cancelRequested : delivery.cancelRequested = true

/-- The delivery's job has been submitted, and has become this task. -/
def IsTask (queue : JobQueue ε β δ η) (ref : DeliveryRef) (delivery : Delivery β δ)
    (found : PoolTask (Job δ η)) : Prop :=
  ∃ task, delivery.future = some task ∧ queue.tasks[task]? = some found ∧ found.payload.delivery = ref

/-- The delivery's job has been submitted. -/
def Submitted (queue : JobQueue ε β δ η) (ref : DeliveryRef) (delivery : Delivery β δ) : Prop :=
  ∃ found, IsTask queue ref delivery found

/-- The future of the delivery has been answered. -/
def Answered (queue : JobQueue ε β δ η) (ref : DeliveryRef) (delivery : Delivery β δ)
    (answer : FutureState) : Prop :=
  ∃ found, IsTask queue ref delivery found ∧ found.future = answer

/-- Why a delivery callback has thrown. -/
inductive Cause (queue : JobQueue ε β δ η) (ref : DeliveryRef) (delivery : Delivery β δ)
    (exception : Throwable) : Prop
  | notSubmitted (none : delivery.future = none)
  | jobThrew (answered : Answered queue ref delivery .exceptional)
  | jobCancelled (answered : Answered queue ref delivery .cancelled)
  | interrupted (same : exception = .interrupted) (submitted : Submitted queue ref delivery)
  | channelClosed (closed : queue.pool.isOpen delivery.channel = false)
      (answered : Answered queue ref delivery .normal)

/-- What has happened to a delivery, phase by phase. -/
def Chronicle (queue : JobQueue ε β δ η) (ref : DeliveryRef) (delivery : Delivery β δ) : Prop :=
  match delivery.phase with
  | .received | .accepted | .decoded _ => Untouched delivery ∧ delivery.future = none
  | .returned .channelClosed =>
    Untouched delivery ∧ delivery.future = none ∧ queue.pool.isOpen delivery.channel = false
  | .awaiting _ => Untouched delivery ∧ Submitted queue ref delivery
  | .completed => Untouched delivery ∧ Answered queue ref delivery .normal
  | .returned .acknowledged =>
    delivery.acks = 1 ∧ delivery.timedOut = false ∧ delivery.timeoutCalls = [] ∧
      Answered queue ref delivery .normal
  | .timedOut _ =>
    delivery.acks = 0 ∧ delivery.timedOut = true ∧ delivery.timeoutCalls = [] ∧
      Submitted queue ref delivery
  | .cancelled _ =>
    delivery.acks = 0 ∧ Cancelled delivery ∧ delivery.timeoutCalls = [] ∧ Submitted queue ref delivery
  | .ackTried _ =>
    delivery.acks ≤ 1 ∧ Cancelled delivery ∧ delivery.timeoutCalls = [] ∧ Submitted queue ref delivery
  | .returned .timedOut =>
    delivery.acks ≤ 1 ∧ Cancelled delivery ∧ delivery.timeoutCalls.length = 1 ∧
      Submitted queue ref delivery
  | .threw exception => Untouched delivery ∧ Cause queue ref delivery exception
  | .failed exception => Untouched delivery ∧ Cause queue ref delivery exception ∧
      queue.pool.isOpen delivery.channel = false

/-- The delivery came over an existing channel, and its phase tells what has happened to it. -/
structure Recorded (queue : JobQueue ε β δ η) (ref : DeliveryRef) (delivery : Delivery β δ) : Prop where
  inside : delivery.channel < queue.pool.executors.length
  chronicle : Chronicle queue ref delivery

variable {ref : DeliveryRef} {delivery : Delivery β δ} {answer : FutureState} {exception : Throwable}

private theorem Submitted.step (step : TaskStep queue next) (submitted : Submitted queue ref delivery) :
    Submitted next ref delivery := by
  obtain ⟨found, task, future, read, own⟩ := submitted
  obtain ⟨after, readAfter, ages⟩ := step.ages read
  exact ⟨after, task, future, readAfter, ages.delivery.trans own⟩

/-- An answer that has been given stays. -/
theorem Answered.step (step : TaskStep queue next) (settled : answer ≠ .pending)
    (answered : Answered queue ref delivery answer) : Answered next ref delivery answer := by
  obtain ⟨found, ⟨task, future, read, own⟩, same⟩ := answered
  obtain ⟨after, readAfter, ages⟩ := step.ages read
  exact ⟨after, ⟨task, future, readAfter, ages.delivery.trans own⟩,
    (ages.settled (same ▸ settled)).trans same⟩

/-- What `future.get` finds is the answer of the delivery's own task. -/
theorem Submitted.answered (submitted : Submitted queue ref delivery)
    (got : queue.answer delivery = some answer) : Answered queue ref delivery answer := by
  obtain ⟨found, task, future, read, own⟩ := submitted
  refine ⟨found, ⟨task, future, read, own⟩, ?_⟩
  rw [JobQueue.answer, future, Option.bind_some, read, Option.map_some] at got
  exact Option.some.inj got

theorem closed_step (older : Older queue next) {ex : ExecutorRef}
    (inside : ex < queue.pool.executors.length) (closed : queue.pool.isOpen ex = false) :
    next.pool.isOpen ex = false := by
  by_contra reopened
  rw [Bool.not_eq_false] at reopened
  rw [older.isOpen reopened inside] at closed
  contradiction

private theorem Cause.step (tasks : TaskStep queue next) (older : Older queue next)
    (inside : delivery.channel < queue.pool.executors.length)
    (cause : Cause queue ref delivery exception) : Cause next ref delivery exception := by
  cases cause with
  | notSubmitted none => exact .notSubmitted none
  | jobThrew answered => exact .jobThrew (answered.step tasks (by decide))
  | jobCancelled answered => exact .jobCancelled (answered.step tasks (by decide))
  | interrupted same submitted => exact .interrupted same (submitted.step tasks)
  | channelClosed closed answered =>
    exact .channelClosed (closed_step older inside closed) (answered.step tasks (by decide))

/-- A delivery that does not move keeps its record. -/
theorem Recorded.step (tasks : TaskStep queue next) (older : Older queue next)
    (recorded : Recorded queue ref delivery) : Recorded next ref delivery := by
  obtain ⟨inside, chronicle⟩ := recorded
  refine ⟨Nat.lt_of_lt_of_le inside older.length_le, ?_⟩
  unfold Chronicle at chronicle ⊢
  split at chronicle
  · exact chronicle
  · exact chronicle
  · exact chronicle
  · exact ⟨chronicle.1, chronicle.2.1, closed_step older inside chronicle.2.2⟩
  · exact ⟨chronicle.1, chronicle.2.step tasks⟩
  · exact ⟨chronicle.1, chronicle.2.step tasks (by decide)⟩
  · exact ⟨chronicle.1, chronicle.2.1, chronicle.2.2.1, chronicle.2.2.2.step tasks (by decide)⟩
  · exact ⟨chronicle.1, chronicle.2.1, chronicle.2.2.1, chronicle.2.2.2.step tasks⟩
  · exact ⟨chronicle.1, chronicle.2.1, chronicle.2.2.1, chronicle.2.2.2.step tasks⟩
  · exact ⟨chronicle.1, chronicle.2.1, chronicle.2.2.1, chronicle.2.2.2.step tasks⟩
  · exact ⟨chronicle.1, chronicle.2.1, chronicle.2.2.1, chronicle.2.2.2.step tasks⟩
  · exact ⟨chronicle.1, chronicle.2.step tasks older inside⟩
  · exact ⟨chronicle.1, chronicle.2.1.step tasks older inside, closed_step older inside chronicle.2.2⟩

private theorem Untouched.move {phase : Phase δ} {future : Option ℕ} (untouched : Untouched delivery) :
    Untouched { delivery with phase, future } :=
  ⟨untouched.acks, untouched.timedOut, untouched.cancelRequested, untouched.timeoutCalls⟩

private theorem Cancelled.move {phase : Phase δ} {acks : ℕ} {timeoutCalls : List δ}
    (cancelled : Cancelled delivery) : Cancelled { delivery with phase, acks, timeoutCalls } :=
  ⟨cancelled.timedOut, cancelled.cancelRequested⟩

private theorem Cause.setPhase {phase : Phase δ} (cause : Cause queue ref delivery exception) :
    Cause queue ref { delivery with phase } exception := by
  cases cause with
  | notSubmitted none => exact .notSubmitted none
  | jobThrew answered => exact .jobThrew answered
  | jobCancelled answered => exact .jobCancelled answered
  | interrupted same submitted => exact .interrupted same submitted
  | channelClosed closed answered => exact .channelClosed closed answered

private theorem isOpen_closeChannel {π : Type} {pool : JobQueueExecutorPool ε π} {ex : ExecutorRef}
    (cause : CloseCause) : (pool.closeChannel ex cause).isOpen ex = false := by
  unfold closeChannel JobQueueExecutorPool.isOpen
  rw [update_executors, List.getElem?_modify_eq]
  cases pool.executors[ex]? <;> simp

/-- A delivery that moves has its new record. -/
theorem Advance.recorded {after : Delivery β δ} (advance : Advance fromJson queue next ref delivery after)
    (tasks : TaskStep queue next) (older : Older queue next)
    (recorded : Recorded queue ref delivery) : Recorded next ref after := by
  obtain ⟨inside, chronicle⟩ := recorded
  have still := Nat.lt_of_lt_of_le inside older.length_le
  rw [Chronicle] at chronicle
  cases advance with
  | accept phase turn opened =>
    rw [phase] at chronicle
    obtain ⟨untouched, none⟩ := chronicle
    exact ⟨still, untouched.move, none⟩
  | refuse phase turn closed =>
    rw [phase] at chronicle
    obtain ⟨untouched, none⟩ := chronicle
    exact ⟨still, untouched.move, none, closed_step older inside closed⟩
  | decode phase decoded =>
    rw [phase] at chronicle
    obtain ⟨untouched, none⟩ := chronicle
    exact ⟨still, untouched.move, none⟩
  | decodeThrows phase thrown =>
    rw [phase] at chronicle
    obtain ⟨untouched, none⟩ := chronicle
    exact ⟨still, untouched.move, .notSubmitted none⟩
  | @submit dispatch phase submitted =>
    rw [phase] at chronicle
    obtain ⟨untouched, -⟩ := chronicle
    refine ⟨still, untouched.move, { payload := { delivery := ref, dispatch } }, _, rfl, ?_, rfl⟩
    rw [submitted]
    exact List.getElem?_concat_length ..
  | reject phase =>
    rw [phase] at chronicle
    obtain ⟨untouched, none⟩ := chronicle
    exact ⟨still, untouched.move, .notSubmitted none⟩
  | jobReturned phase answer =>
    rw [phase] at chronicle
    obtain ⟨untouched, submitted⟩ := chronicle
    exact ⟨still, untouched.move, (submitted.answered answer).step tasks (by decide)⟩
  | jobThrew phase answer =>
    rw [phase] at chronicle
    obtain ⟨untouched, submitted⟩ := chronicle
    exact ⟨still, untouched.move, .jobThrew ((submitted.answered answer).step tasks (by decide))⟩
  | jobCancelled phase answer =>
    rw [phase] at chronicle
    obtain ⟨untouched, submitted⟩ := chronicle
    exact ⟨still, untouched.move, .jobCancelled ((submitted.answered answer).step tasks (by decide))⟩
  | timeOut phase answer =>
    rw [phase] at chronicle
    obtain ⟨untouched, submitted⟩ := chronicle
    exact ⟨still, untouched.acks, rfl, untouched.timeoutCalls, submitted.step tasks⟩
  | interrupt phase answer =>
    rw [phase] at chronicle
    obtain ⟨untouched, submitted⟩ := chronicle
    exact ⟨still, untouched.move, .interrupted rfl (submitted.step tasks)⟩
  | ack phase opened =>
    rw [phase] at chronicle
    obtain ⟨untouched, answered⟩ := chronicle
    exact ⟨still, congrArg (· + 1) untouched.acks, untouched.timedOut, untouched.timeoutCalls,
      answered.step tasks (by decide)⟩
  | ackThrows phase closed =>
    rw [phase] at chronicle
    obtain ⟨untouched, answered⟩ := chronicle
    exact ⟨still, untouched.move,
      .channelClosed (closed_step older inside closed) (answered.step tasks (by decide))⟩
  | cancel phase =>
    rw [phase] at chronicle
    obtain ⟨acks, timedOut, timeoutCalls, submitted⟩ := chronicle
    exact ⟨still, acks, ⟨timedOut, rfl⟩, timeoutCalls, submitted.step tasks⟩
  | lateAck phase opened =>
    rw [phase] at chronicle
    obtain ⟨acks, cancelled, timeoutCalls, submitted⟩ := chronicle
    exact ⟨still, Nat.le_of_eq (congrArg (· + 1) acks), cancelled.move, timeoutCalls, submitted.step tasks⟩
  | lateAckThrows phase closed =>
    rw [phase] at chronicle
    obtain ⟨acks, cancelled, timeoutCalls, submitted⟩ := chronicle
    exact ⟨still, Nat.le_trans (Nat.le_of_eq acks) (Nat.zero_le 1), cancelled.move, timeoutCalls,
      submitted.step tasks⟩
  | callTimeoutFn phase =>
    rw [phase] at chronicle
    obtain ⟨acks, cancelled, timeoutCalls, submitted⟩ := chronicle
    exact ⟨still, acks, cancelled.move, by rw [timeoutCalls]; rfl, submitted.step tasks⟩
  | handleException phase closes =>
    rw [phase] at chronicle
    obtain ⟨untouched, cause⟩ := chronicle
    refine ⟨still, untouched.move, (cause.step tasks older inside).setPhase, ?_⟩
    rw [closes]
    exact isOpen_closeChannel _

theorem Recorded.acks_le_one (recorded : Recorded queue ref delivery) : delivery.acks ≤ 1 := by
  have chronicle := recorded.chronicle
  rw [Chronicle] at chronicle
  split at chronicle
  all_goals first
    | exact Nat.le_trans (Nat.le_of_eq chronicle.1.acks) (Nat.zero_le 1)
    | exact Nat.le_of_eq chronicle.1
    | exact chronicle.1
    | exact Nat.le_trans (Nat.le_of_eq chronicle.1) (Nat.zero_le 1)

/-- While its callback runs in time, a delivery is not acknowledged. -/
theorem Recorded.acks_of_active (recorded : Recorded queue ref delivery) (active : delivery.phase.isActive = true)
    (inTime : delivery.timedOut = false) : delivery.acks = 0 := by
  have chronicle := recorded.chronicle
  rw [Chronicle] at chronicle
  split at chronicle
  · exact chronicle.1.acks
  · exact chronicle.1.acks
  · exact chronicle.1.acks
  · exact chronicle.1.acks
  · exact chronicle.1.acks
  · exact chronicle.1.acks
  · next phase => rw [phase] at active; contradiction
  · exact chronicle.1
  · exact chronicle.1
  · rw [chronicle.2.1.timedOut] at inTime; contradiction
  · rw [chronicle.2.1.timedOut] at inTime; contradiction
  · exact chronicle.1.acks
  · exact chronicle.1.acks

/-- A callback that is over in time, on a channel still open, has acknowledged its delivery. -/
theorem Recorded.acks_of_over (recorded : Recorded queue ref delivery) (isOver : delivery.phase.isOver = true)
    (inTime : delivery.timedOut = false) (opened : queue.pool.isOpen delivery.channel = true) :
    delivery.acks = 1 := by
  have chronicle := recorded.chronicle
  rw [Chronicle] at chronicle
  split at chronicle
  · next phase => rw [phase] at isOver; contradiction
  · next phase => rw [phase] at isOver; contradiction
  · next phase => rw [phase] at isOver; contradiction
  · rw [opened] at chronicle; exact absurd chronicle.2.2 (by decide)
  · next phase => rw [phase] at isOver; contradiction
  · next phase => rw [phase] at isOver; contradiction
  · exact chronicle.1
  · next phase => rw [phase] at isOver; contradiction
  · next phase => rw [phase] at isOver; contradiction
  · next phase => rw [phase] at isOver; contradiction
  · rw [chronicle.2.1.timedOut] at inTime; contradiction
  · next phase => rw [phase] at isOver; contradiction
  · rw [opened] at chronicle; exact absurd chronicle.2.2 (by decide)

/-- Every delivery and every task of the queue has the record its phase calls for. -/
structure Coherent (queue : JobQueue ε β δ η) : Prop where
  recorded : ∀ (ref : DeliveryRef) (delivery : Delivery β δ), queue.deliveries[ref]? = some delivery →
    Recorded queue ref delivery
  sound : ∀ task ∈ queue.tasks, SoundTask queue.handlers task

theorem isOpen_of_isLive {π : Type} {pool : JobQueueExecutorPool ε π} {ex : ExecutorRef}
    (live : pool.isLive ex = true) : pool.isOpen ex = true ∧ ex < pool.executors.length := by
  obtain ⟨executor, read, alive⟩ := isLive_iff.mp live
  rw [Executor.isLive, Bool.and_eq_true] at alive
  exact ⟨isOpen_iff.mpr ⟨executor, read, alive.2⟩, (List.getElem?_eq_some_iff.mp read).1⟩

theorem coherent_starting (pool : JobQueueExecutorPool ε (Job δ η)) (waiting : List β)
    (fresh : pool.threads.tasks = []) : Coherent (starting pool waiting) :=
  ⟨by simp [starting], by simp [starting, tasks, JobQueue.pool, PoolThreads.starting, fresh]⟩

theorem coherent_of_new {config : ExecutorPoolConfig ε} {clock : Clock}
    {pool : JobQueueExecutorPool ε (Job δ η)}
    (constructed : JobQueueExecutorPool.new config clock = .ok pool) {waiting : List β} :
    Coherent (starting pool waiting) := by
  obtain ⟨-, -, rfl⟩ := new_eq_ok constructed
  exact coherent_starting _ waiting rfl

theorem coherent_step [ExecutorFailureEnforcer ε] {action : JobQueueAction β η}
    (coherent : Coherent queue) (stepped : step fromJson queue action = some next) : Coherent next := by
  have tasks := step_tasks stepped
  have older := step_older stepped
  refine ⟨fun ref delivery read => ?_, tasks.sound older.handlers coherent.sound⟩
  cases (step_deliveries stepped).origin read with
  | same old => exact (coherent.recorded ref delivery old).step tasks older
  | advanced before asked known advance =>
    exact advance.recorded tasks older (coherent.recorded ref before known)
  | delivered ex body live fresh =>
    subst fresh
    exact ⟨Nat.lt_of_lt_of_le (isOpen_of_isLive live).2 older.length_le, ⟨rfl, rfl, rfl, rfl⟩, rfl⟩

theorem coherent_of_run [ExecutorFailureEnforcer ε] {actions : List (JobQueueAction β η)}
    (coherent : Coherent queue) (ran : run (step fromJson) queue actions = some next) : Coherent next :=
  run_invariant (fun _ _ _ coherent stepped => coherent_step coherent stepped) coherent ran

end RabbitJobQueue.Model.JobQueue
