import RabbitJobQueue.Proofs.Custody
import RabbitJobQueue.Proofs.RegisteredHandlers

/-! # At-least-once execution

Whatever the order of dispatches, deliveries, handler returns and exceptions, timeouts, channel
closures and replacements: the broker forgets a message only for a delivery whose handlers have all
returned or whose wait has timed out, a delivery that ends in any other way gives its message back,
and no message is lost or duplicated on the way.
-/

namespace RabbitJobQueue.Soundness.AtLeastOnce

open Machine Model Model.JobQueue

variable {ε β δ η : Type} {fromJson : β → Except Throwable δ}
  {queue next : JobQueue ε β δ η} {ref : DeliveryRef} {delivery : Delivery β δ}
  {action : JobQueueAction β η}

/-- The messages dispatched by a run, in order. -/
def dispatched (actions : List (JobQueueAction β η)) : List β := actions.filterMap published

/-- The delivery's job has run to its end: `future.get` answered in time, and every handler
registered for the execution has returned normally. -/
def HandlersReturned (queue : JobQueue ε β δ η) (ref : DeliveryRef) (delivery : Delivery β δ) : Prop :=
  delivery.timedOut = false ∧ ∃ found execution, IsTask queue ref delivery found ∧
    found.future = .normal ∧ found.payload.execution = some execution ∧
    execution.running = none ∧ execution.returned = execution.registered

/-- The delivery ended otherwise: it found its channel closed, or its callback threw, because the
message could not be decoded, the submission was rejected, the job threw, was cancelled or the wait
interrupted, or the acknowledgement failed. -/
def EndedOtherwise (delivery : Delivery β δ) : Prop :=
  delivery.phase = .returned .channelClosed ∨
    ∃ exception, delivery.phase = .threw exception ∨ delivery.phase = .failed exception

/-- An acknowledged delivery is one whose job has come back, or one whose wait has timed out. -/
theorem acked_cases (coherent : Coherent queue) (read : queue.deliveries[ref]? = some delivery)
    (acked : delivery.acks ≠ 0) : HandlersReturned queue ref delivery ∨
      (delivery.timedOut = true ∧ delivery.cancelRequested = true) := by
  have chronicle := (coherent.recorded ref delivery read).chronicle
  unfold Chronicle at chronicle
  split at chronicle
  · exact absurd chronicle.1.acks acked
  · exact absurd chronicle.1.acks acked
  · exact absurd chronicle.1.acks acked
  · exact absurd chronicle.1.acks acked
  · exact absurd chronicle.1.acks acked
  · exact absurd chronicle.1.acks acked
  · obtain ⟨-, inTime, -, found, isTask, normal⟩ := chronicle
    have ⟨task, _, readTask, _⟩ := isTask
    obtain ⟨-, execution, carried, complete⟩ :=
      (coherent.sound found (List.mem_of_getElem? readTask)).normal normal
    exact .inl ⟨inTime, found, execution, isTask, normal, carried, complete⟩
  · exact absurd chronicle.1 acked
  · exact absurd chronicle.1 acked
  · exact .inr ⟨chronicle.2.1.timedOut, chronicle.2.1.cancelRequested⟩
  · exact .inr ⟨chronicle.2.1.timedOut, chronicle.2.1.cancelRequested⟩
  · exact absurd chronicle.1.acks acked
  · exact absurd chronicle.1.acks acked

/-- Before the wait has timed out nothing calls `timeoutFn`. -/
theorem timeoutCalls_of_inTime (recorded : Recorded queue ref delivery)
    (called : delivery.timeoutCalls ≠ []) : delivery.timedOut = true := by
  have chronicle := recorded.chronicle
  unfold Chronicle at chronicle
  split at chronicle
  · exact absurd chronicle.1.timeoutCalls called
  · exact absurd chronicle.1.timeoutCalls called
  · exact absurd chronicle.1.timeoutCalls called
  · exact absurd chronicle.1.timeoutCalls called
  · exact absurd chronicle.1.timeoutCalls called
  · exact absurd chronicle.1.timeoutCalls called
  · exact absurd chronicle.2.2.1 called
  · exact chronicle.2.1
  · exact chronicle.2.1.timedOut
  · exact chronicle.2.1.timedOut
  · exact chronicle.2.1.timedOut
  · exact absurd chronicle.1.timeoutCalls called
  · exact absurd chronicle.1.timeoutCalls called

/-- Where a delivery is whose wait has timed out: it is on its way to the call of `timeoutFn`, and
nothing can keep it from getting there, or that call is behind it. -/
theorem timedOut_cases (recorded : Recorded queue ref delivery) (timedOut : delivery.timedOut = true) :
    (delivery.phase.isOver = true ∧ delivery.timeoutCalls.length = 1) ∨
      (delivery.phase.isOver = false ∧ delivery.timeoutCalls = [] ∧
        ∃ next, callback fromJson queue ref delivery .answered = some next) := by
  have chronicle := recorded.chronicle
  have late (untouched : Untouched delivery) : False := by
    rw [untouched.timedOut] at timedOut
    contradiction
  unfold Chronicle at chronicle
  split at chronicle
  · exact (late chronicle.1).elim
  · exact (late chronicle.1).elim
  · exact (late chronicle.1).elim
  · exact (late chronicle.1).elim
  · exact (late chronicle.1).elim
  · exact (late chronicle.1).elim
  · rw [chronicle.2.1] at timedOut
    contradiction
  · next dispatch phase =>
    obtain ⟨-, -, calls, found, task, future, -⟩ := chronicle
    refine .inr ⟨by rw [phase]; rfl, calls, ?_⟩
    simp only [callback, phase, future, Option.map_some, Option.some.injEq, exists_eq']
  · next dispatch phase =>
    refine .inr ⟨by rw [phase]; rfl, chronicle.2.2.1, ?_⟩
    simp only [callback, phase]
    split <;> exact ⟨_, rfl⟩
  · next dispatch phase =>
    refine .inr ⟨by rw [phase]; rfl, chronicle.2.2.1, ?_⟩
    simp only [callback, phase, Option.some.injEq, exists_eq']
  · next phase => exact .inl ⟨by rw [phase]; rfl, chronicle.2.2.1⟩
  · exact (late chronicle.1).elim
  · exact (late chronicle.1).elim

/-- The only acknowledgement of a delivery whose wait has timed out comes after `cancel`. -/
theorem cancelRequested_of_acked {after : Delivery β δ} (recorded : Recorded queue ref delivery)
    (advance : Advance fromJson queue next ref delivery after) (acked : delivery.acks < after.acks)
    (timedOut : delivery.timedOut = true) : delivery.cancelRequested = true := by
  have chronicle := recorded.chronicle
  unfold Chronicle at chronicle
  cases advance with
  | ack phase opened =>
    rw [phase] at chronicle
    rw [chronicle.1.timedOut] at timedOut
    contradiction
  | lateAck phase opened =>
    rw [phase] at chronicle
    exact chronicle.2.1.cancelRequested
  | _ => exact absurd acked (Nat.lt_irrefl _)

/-- What an ended delivery has not acknowledged, it does not have any more. -/
theorem givenBack_of_endedOtherwise (recorded : Recorded queue ref delivery) (custody : Custody queue)
    (read : queue.deliveries[ref]? = some delivery) (ended : EndedOtherwise delivery) :
    delivery.acks = 0 ∧ (∀ held ∈ queue.broker.removed, held.tag ≠ ref) ∧
      (delivery.phase.isOver = true →
        (∀ held ∈ queue.broker.unacked, held.tag ≠ ref) ∧ delivery.body ∈ queue.broker.inventory) := by
  have chronicle := recorded.chronicle
  unfold Chronicle at chronicle
  have acks : delivery.acks = 0 := by
    rcases ended with phase | ⟨exception, phase | phase⟩ <;> rw [phase] at chronicle <;>
      exact chronicle.1.acks
  have closed : delivery.phase.isOver = true → queue.pool.isOpen delivery.channel = false := by
    intro isOver
    rcases ended with phase | ⟨exception, phase | phase⟩ <;> rw [phase] at chronicle isOver
    · exact chronicle.2.2
    · contradiction
    · exact chronicle.2.2
  refine ⟨acks, fun held member same => ?_, fun isOver => ⟨fun held member same => ?_, ?_⟩⟩
  · obtain ⟨other, known, -, acked⟩ := custody.removed held member
    cases (same ▸ known).symm.trans read
    exact acked acks
  · obtain ⟨other, known, channel, -, -, opened⟩ := custody.held held member
    cases (same ▸ known).symm.trans read
    rw [← channel, closed isOver] at opened
    contradiction
  · exact custody.known delivery (List.mem_of_getElem? read)

variable [ExecutorFailureEnforcer ε]

/-- The guarantees in one state of the job queue, `published` being all messages so far. -/
structure Guaranteed (fromJson : β → Except Throwable δ) (published : List β)
    (queue : JobQueue ε β δ η) : Prop where
  conserved : queue.broker.inventory.Perm published
  ackedOnce : ∀ delivery ∈ queue.deliveries, delivery.acks ≤ 1
  removedFor : ∀ held ∈ queue.broker.removed, ∃ delivery,
    queue.deliveries[held.tag]? = some delivery ∧ delivery.body = held.message ∧ delivery.acks = 1 ∧
      (HandlersReturned queue held.tag delivery ∨
        (delivery.timedOut = true ∧ delivery.cancelRequested = true))
  cancelledFirst : ∀ action next, step fromJson queue action = some next →
    ∀ (ref : DeliveryRef) (before after : Delivery β δ), queue.deliveries[ref]? = some before →
      next.deliveries[ref]? = some after → before.acks < after.acks → before.timedOut = true →
        before.cancelRequested = true
  timeoutOnce : ∀ (ref : DeliveryRef) (delivery : Delivery β δ),
    queue.deliveries[ref]? = some delivery → delivery.timedOut = true →
      (delivery.phase.isOver = true ∧ delivery.timeoutCalls.length = 1) ∨
      (delivery.phase.isOver = false ∧ delivery.timeoutCalls = [] ∧
        ∃ next, step fromJson queue (.callback ref .answered) = some next)
  timeoutOnly : ∀ delivery ∈ queue.deliveries, delivery.timeoutCalls ≠ [] → delivery.timedOut = true
  givenBack : ∀ (ref : DeliveryRef) (delivery : Delivery β δ), queue.deliveries[ref]? = some delivery →
    EndedOtherwise delivery → delivery.acks = 0 ∧ (∀ held ∈ queue.broker.removed, held.tag ≠ ref) ∧
      (delivery.phase.isOver = true →
        (∀ held ∈ queue.broker.unacked, held.tag ≠ ref) ∧ delivery.body ∈ queue.broker.inventory)

/-- The handlers are those that `onJob` has been called for, and the handlers a job is executed with those
for which it had been called when a thread took the job off the queue. -/
structure TakenWith (fromJson : β → Except Throwable δ) (start : JobQueue ε β δ η)
    (actions : List (JobQueueAction β η)) (queue : JobQueue ε β δ η) : Prop where
  handlers : queue.handlers.handlers = registrations actions
  registered : ∀ task found execution, queue.tasks[task]? = some found →
    found.payload.execution = some execution → ∃ before middle after,
      actions = before ++ .takeTask :: after ∧ run (step fromJson) start before = some middle ∧
      middle.pool.threads.queue.head? = some task ∧ execution.registered = registrations before

theorem inventory_of_run {actions : List (JobQueueAction β η)}
    (ran : run (step fromJson) queue actions = some next) :
    next.broker.inventory.Perm (queue.broker.inventory ++ dispatched actions) := by
  induction actions generalizing queue with
  | nil => cases ran; rw [dispatched, List.filterMap_nil, List.append_nil]
  | cons action rest ih =>
    obtain ⟨middle, stepped, continued⟩ := run_cons_eq_some.mp ran
    have one : middle.broker.inventory.Perm ((published action).toList ++ queue.broker.inventory) :=
      (step_broker stepped).inventory
    calc
      next.broker.inventory.Perm (middle.broker.inventory ++ dispatched rest) := ih continued
      List.Perm _ ((published action).toList ++ queue.broker.inventory ++ dispatched rest) :=
        one.append_right _
      List.Perm _ (queue.broker.inventory ++ (published action).toList ++ dispatched rest) :=
        List.perm_append_comm.append_right _
      _ = queue.broker.inventory ++ dispatched (action :: rest) := by
        rw [List.append_assoc, dispatched, dispatched, List.filterMap_cons]
        cases published action <;> rfl

/-- Every run of the job queue executes its messages at least once. -/
theorem atLeastOnce (config : ExecutorPoolConfig ε) (clock : Clock) (fromJson : β → Except Throwable δ)
    (waiting : List β) (actions : List (JobQueueAction β η))
    (pool : JobQueueExecutorPool ε (Job δ η)) (constructed : JobQueueExecutorPool.new config clock = .ok pool)
    (ran : run (step fromJson) (starting pool waiting) actions = some queue) :
    Guaranteed fromJson (waiting ++ dispatched actions) queue ∧
      TakenWith fromJson (starting pool waiting) actions queue := by
  have coherent : Coherent queue := coherent_of_run (coherent_of_new constructed) ran
  obtain ⟨-, -, rfl⟩ := JobQueueExecutorPool.new_eq_ok constructed
  have custody : Custody queue :=
    run_invariant (fun _ _ _ custody stepped => custody_step custody stepped)
      (custody_starting _ waiting) ran
  refine ⟨?_, handlers_of_run ran, fun task found execution read carried =>
    taken_of_run rfl ran ⟨found, execution, read, carried, rfl⟩⟩
  constructor
  · simpa [starting, Broker.inventory] using inventory_of_run ran
  · intro delivery member
    obtain ⟨ref, read⟩ := List.mem_iff_getElem?.mp member
    exact (coherent.recorded ref delivery read).acks_le_one
  · intro held member
    obtain ⟨delivery, read, body, acked⟩ := custody.removed held member
    have once := (coherent.recorded _ delivery read).acks_le_one
    exact ⟨delivery, read, body, by omega, acked_cases coherent read acked⟩
  · intro action next stepped ref before after read readAfter acked timedOut
    obtain ⟨other, known, -, rfl | ⟨-, advance⟩⟩ := (step_deliveries stepped).kept read
    · cases known.symm.trans readAfter
      omega
    · cases known.symm.trans readAfter
      exact cancelRequested_of_acked (coherent.recorded ref before read) advance acked timedOut
  · intro ref delivery read timedOut
    simp only [step, read, Option.bind_some]
    exact timedOut_cases (coherent.recorded ref delivery read) timedOut
  · intro delivery member called
    obtain ⟨ref, read⟩ := List.mem_iff_getElem?.mp member
    exact timeoutCalls_of_inTime (coherent.recorded ref delivery read) called
  · intro ref delivery read ended
    exact givenBack_of_endedOtherwise (coherent.recorded ref delivery read) custody read ended

/-- One message is executed, with a second handler registered meanwhile, and one cannot be decoded. -/
def executeOne : List (JobQueueAction ℕ ℕ) :=
  [.pool (.exec 0 {} false), .pool (.exec 0 {} false), .pool (.exec 0 {} false), .onJob 7,
    .publish 1, .deliver 1 0, .deliver 0 0, .callback 0 .answered, .callback 0 .answered,
    .callback 0 .answered, .takeTask, .nextHandler 0, .handlerEnds 0 true, .nextHandler 0, .onJob 8,
    .callback 0 .answered, .callback 0 .answered, .callback 1 .answered, .callback 1 .answered,
    .handleException 1]

theorem atLeastOnce_two : ∃ (pool : JobQueueExecutorPool MaxFailureEnforcer (Job ℕ ℕ))
    (queue : JobQueue MaxFailureEnforcer ℕ ℕ ℕ),
    queue.broker.removed.length = 1 ∧ queue.broker.ready = [0] ∧
    (queue.tasks.map fun task => task.payload.execution.map (·.registered)) = [some [7]] ∧
    Guaranteed (fun body => if body = 0 then .error .nullPointer else .ok body) [0, 1] queue ∧
    TakenWith (fun body => if body = 0 then .error .nullPointer else .ok body) (starting pool [0]) executeOne
      queue :=
  ⟨_, _, by decide, by decide, by decide,
    atLeastOnce ⟨"jobs", 1, maxTotalFailures 5⟩ (Stream'.const 0) _ [0] executeOne _ rfl rfl⟩

end RabbitJobQueue.Soundness.AtLeastOnce
