import RabbitJobQueue.Model.JobQueue
import RabbitJobQueue.Proofs.PoolThreads

/-! # What one step of the job queue can do

A step moves at most one delivery, by one of the transitions of `Advance`; it lets the pool evolve;
and it takes at most one task one turn further. These three views are independent of each other, and
everything proved about runs of the job queue is proved from them.
-/

namespace RabbitJobQueue.Model.JobQueue

open Machine JobQueueExecutorPool

variable {ε β δ η : Type} {fromJson : β → Except Throwable δ} {queue next : JobQueue ε β δ η}
  {ref : DeliveryRef} {delivery after : Delivery β δ} {wait : Wait} {action : JobQueueAction β η}

/-- The step an action comes to, with everything the step has checked. -/
inductive Step [ExecutorFailureEnforcer ε] (fromJson : β → Except Throwable δ)
    (queue next : JobQueue ε β δ η) : JobQueueAction β η → Prop
  | publish (body : β) (same : next = { queue with broker := queue.broker.publish body }) :
      Step fromJson queue next (.publish body)
  | deliver (position : ℕ) (ex : ExecutorRef) (broker : Broker ExecutorRef β) (body : β)
      (live : queue.pool.isLive ex = true)
      (handed : queue.broker.deliver position queue.deliveries.length ex = some (broker, body))
      (same : next = { queue with
        broker, deliveries := queue.deliveries ++ [{ channel := ex, body }] }) :
      Step fromJson queue next (.deliver position ex)
  | callback (ref : DeliveryRef) (delivery : Delivery β δ) (wait : Wait)
      (read : queue.deliveries[ref]? = some delivery)
      (called : callback fromJson queue ref delivery wait = some next) :
      Step fromJson queue next (.callback ref wait)
  | handleException (ref : DeliveryRef) (delivery : Delivery β δ) (exception : Throwable)
      (read : queue.deliveries[ref]? = some delivery) (phase : delivery.phase = .threw exception)
      (same : next = (queue.withPoolThreads { queue.threads with
        pool := queue.pool.closeChannel delivery.channel .callbackException }).setPhase ref
          (.failed exception)) : Step fromJson queue next (.handleException ref)
  | takeTask (threads : ThreadPool (Job δ η))
      (taken : queue.pool.threads.take (Job.begin queue.handlers) = some threads)
      (same : next = queue.withThreads threads) : Step fromJson queue next .takeTask
  | nextHandler (task : ℕ) (execution : Execution η) (running : queue.running task = some execution)
      (idle : execution.running = none) (same : next = queue.nextHandler task execution) :
      Step fromJson queue next (.nextHandler task)
  | handlerReturns (task : ℕ) (execution : Execution η) (running : queue.running task = some execution)
      (inside : execution.running.isSome = true) (same : next = queue.withThreads (queue.pool.threads.advance task
        ({ · with execution := some execution.finishHandler }))) :
      Step fromJson queue next (.handlerEnds task true)
  | handlerThrows (task : ℕ) (execution : Execution η) (running : queue.running task = some execution)
      (inside : execution.running.isSome = true)
      (same : next = queue.withThreads (queue.pool.threads.finish task .exceptional)) :
      Step fromJson queue next (.handlerEnds task false)
  | onJob (handler : η) (constructed : queue.threads.activities.head? = some [])
      (same : next = { queue with handlers := queue.handlers.register handler }) :
      Step fromJson queue next (.onJob handler)
  | pool (action : PoolAction) (threads : PoolThreads ε (Job δ η))
      (other : action.isExceptionHandling = false) (moved : queue.threads.step action = some threads)
      (same : next = queue.withPoolThreads threads) : Step fromJson queue next (.pool action)

theorem step_spec [ExecutorFailureEnforcer ε] (stepped : step fromJson queue action = some next) :
    Step fromJson queue next action := by
  cases action with
  | publish body => exact .publish body (Option.some.inj stepped).symm
  | deliver position ex =>
    unfold step at stepped
    dsimp only at stepped
    split at stepped
    · next live =>
      obtain ⟨⟨broker, body⟩, handed, same⟩ := Option.map_eq_some_iff.mp stepped
      exact .deliver position ex broker body live handed same.symm
    · contradiction
  | callback ref wait =>
    obtain ⟨delivery, read, called⟩ := Option.bind_eq_some_iff.mp stepped
    exact .callback ref delivery wait read called
  | handleException ref =>
    obtain ⟨delivery, read, handled⟩ := Option.bind_eq_some_iff.mp stepped
    split at handled
    · next exception phase =>
      exact .handleException ref delivery exception read phase (Option.some.inj handled).symm
    · contradiction
  | takeTask =>
    obtain ⟨threads, taken, same⟩ := Option.map_eq_some_iff.mp stepped
    exact .takeTask threads taken same.symm
  | nextHandler task =>
    obtain ⟨execution, running, handled⟩ := Option.bind_eq_some_iff.mp stepped
    split at handled
    · next idle =>
      exact .nextHandler task execution running (Option.isNone_iff_eq_none.mp idle)
        (Option.some.inj handled).symm
    · contradiction
  | handlerEnds task normally =>
    obtain ⟨execution, running, handled⟩ := Option.bind_eq_some_iff.mp stepped
    split at handled
    · next inside =>
      cases normally with
      | true => exact .handlerReturns task execution running inside (Option.some.inj handled).symm
      | false => exact .handlerThrows task execution running inside (Option.some.inj handled).symm
    · contradiction
  | onJob handler =>
    unfold step at stepped
    dsimp only at stepped
    split at stepped
    · next constructed => exact .onJob handler constructed (Option.some.inj stepped).symm
    · contradiction
  | pool action =>
    unfold step at stepped
    dsimp only at stepped
    split at stepped
    · contradiction
    · next other =>
      obtain ⟨threads, moved, same⟩ := Option.map_eq_some_iff.mp stepped
      exact .pool action threads (eq_false_of_ne_true other) moved same.symm

/-- The transitions of a delivery, each with what the callback, or the client, has seen. -/
inductive Advance (fromJson : β → Except Throwable δ) (queue next : JobQueue ε β δ η)
    (ref : DeliveryRef) (delivery : Delivery β δ) : Delivery β δ → Prop
  | accept (phase : delivery.phase = .received) (turn : queue.isNext ref delivery.channel = true)
      (opened : queue.pool.isOpen delivery.channel = true) :
      Advance fromJson queue next ref delivery { delivery with phase := .accepted }
  | refuse (phase : delivery.phase = .received) (turn : queue.isNext ref delivery.channel = true)
      (closed : queue.pool.isOpen delivery.channel = false) :
      Advance fromJson queue next ref delivery { delivery with phase := .returned .channelClosed }
  | decode {dispatch : δ} (phase : delivery.phase = .accepted)
      (decoded : fromJson delivery.body = .ok dispatch) :
      Advance fromJson queue next ref delivery { delivery with phase := .decoded dispatch }
  | decodeThrows {exception : Throwable} (phase : delivery.phase = .accepted)
      (thrown : fromJson delivery.body = .error exception) :
      Advance fromJson queue next ref delivery { delivery with phase := .threw exception }
  | submit {dispatch : δ} (phase : delivery.phase = .decoded dispatch)
      (submitted : next.tasks = queue.tasks ++ [{ payload := { delivery := ref, dispatch } }]) :
      Advance fromJson queue next ref delivery
        { delivery with phase := .awaiting dispatch, future := some queue.tasks.length }
  | reject {dispatch : δ} (phase : delivery.phase = .decoded dispatch) :
      Advance fromJson queue next ref delivery { delivery with phase := .threw .rejectedExecution }
  | jobReturned {dispatch : δ} (phase : delivery.phase = .awaiting dispatch)
      (answer : queue.answer delivery = some .normal) :
      Advance fromJson queue next ref delivery { delivery with phase := .completed }
  | jobThrew {dispatch : δ} (phase : delivery.phase = .awaiting dispatch)
      (answer : queue.answer delivery = some .exceptional) :
      Advance fromJson queue next ref delivery { delivery with phase := .threw .execution }
  | jobCancelled {dispatch : δ} (phase : delivery.phase = .awaiting dispatch)
      (answer : queue.answer delivery = some .cancelled) :
      Advance fromJson queue next ref delivery { delivery with phase := .threw .cancellation }
  | timeOut {dispatch : δ} (phase : delivery.phase = .awaiting dispatch)
      (answer : queue.answer delivery = some .pending) :
      Advance fromJson queue next ref delivery
        { delivery with phase := .timedOut dispatch, timedOut := true }
  | interrupt {dispatch : δ} (phase : delivery.phase = .awaiting dispatch)
      (answer : queue.answer delivery = some .pending) :
      Advance fromJson queue next ref delivery { delivery with phase := .threw .interrupted }
  | ack (phase : delivery.phase = .completed) (opened : queue.pool.isOpen delivery.channel = true) :
      Advance fromJson queue next ref delivery
        { delivery with phase := .returned .acknowledged, acks := delivery.acks + 1 }
  | ackThrows (phase : delivery.phase = .completed)
      (closed : queue.pool.isOpen delivery.channel = false) :
      Advance fromJson queue next ref delivery { delivery with phase := .threw .alreadyClosed }
  | cancel {dispatch : δ} (phase : delivery.phase = .timedOut dispatch) :
      Advance fromJson queue next ref delivery
        { delivery with phase := .cancelled dispatch, cancelRequested := true }
  | lateAck {dispatch : δ} (phase : delivery.phase = .cancelled dispatch)
      (opened : queue.pool.isOpen delivery.channel = true) :
      Advance fromJson queue next ref delivery
        { delivery with phase := .ackTried dispatch, acks := delivery.acks + 1 }
  | lateAckThrows {dispatch : δ} (phase : delivery.phase = .cancelled dispatch)
      (closed : queue.pool.isOpen delivery.channel = false) :
      Advance fromJson queue next ref delivery { delivery with phase := .ackTried dispatch }
  | callTimeoutFn {dispatch : δ} (phase : delivery.phase = .ackTried dispatch) :
      Advance fromJson queue next ref delivery { delivery with
        phase := .returned .timedOut, timeoutCalls := delivery.timeoutCalls ++ [dispatch] }
  | handleException {exception : Throwable} (phase : delivery.phase = .threw exception)
      (closes : next.pool = queue.pool.closeChannel delivery.channel .callbackException) :
      Advance fromJson queue next ref delivery { delivery with phase := .failed exception }

/-- What a statement of the delivery callback does to the queue: it moves its delivery, it may submit
or cancel a task, and the broker hears of it only if it acknowledges. -/
structure CallbackStep (fromJson : β → Except Throwable δ) (queue next : JobQueue ε β δ η)
    (ref : DeliveryRef) (delivery after : Delivery β δ) : Prop where
  advance : Advance fromJson queue next ref delivery after
  deliveries : next.deliveries = queue.deliveries.set ref after
  handlers : next.handlers = queue.handlers
  threads : ∃ threads, next.threads = (queue.withThreads threads).threads
  broker : (next.broker = queue.broker ∧ after.acks = delivery.acks) ∨
    (next.broker = queue.broker.ack ref ∧ after.acks = delivery.acks + 1 ∧
      queue.pool.isOpen delivery.channel = true)

theorem setDelivery_deliveries {change : Delivery β δ → Delivery β δ}
    (read : queue.deliveries[ref]? = some delivery) :
    (queue.setDelivery ref change).deliveries = queue.deliveries.set ref (change delivery) :=
  modify_eq_set read

theorem setDelivery_setPhase_deliveries {change : Delivery β δ → Delivery β δ} {phase : Phase δ}
    (read : queue.deliveries[ref]? = some delivery) :
    ((queue.setDelivery ref change).setPhase ref phase).deliveries =
      queue.deliveries.set ref { change delivery with phase } := by
  unfold setPhase setDelivery
  rw [List.modify_modify_eq]
  exact modify_eq_set read

/-- A statement that only moves the delivery. -/
theorem CallbackStep.of_setDelivery {change : Delivery β δ → Delivery β δ}
    (read : queue.deliveries[ref]? = some delivery) (acks : (change delivery).acks = delivery.acks)
    (advance : Advance fromJson queue (queue.setDelivery ref change) ref delivery (change delivery)) :
    CallbackStep fromJson queue (queue.setDelivery ref change) ref delivery (change delivery) where
  advance
  deliveries := setDelivery_deliveries read
  handlers := rfl
  threads := ⟨queue.pool.threads, rfl⟩
  broker := .inl ⟨rfl, acks⟩

theorem callback_spec (read : queue.deliveries[ref]? = some delivery)
    (called : callback fromJson queue ref delivery wait = some next) :
    ∃ after, CallbackStep fromJson queue next ref delivery after := by
  rw [callback] at called
  split at called
  · next phase =>
    split at called
    · next turn =>
      split at called <;> cases called
      · next opened => exact ⟨_, .of_setDelivery read rfl (.accept phase turn opened)⟩
      · next closed =>
        exact ⟨_, .of_setDelivery read rfl (.refuse phase turn (eq_false_of_ne_true closed))⟩
    · contradiction
  · next phase =>
    split at called <;> cases called
    · next dispatch decoded => exact ⟨_, .of_setDelivery read rfl (.decode phase decoded)⟩
    · next exception thrown => exact ⟨_, .of_setDelivery read rfl (.decodeThrows phase thrown)⟩
  · next dispatch phase =>
    split at called <;> cases called
    · next threads task submitted =>
      obtain ⟨-, rfl, rfl⟩ := ThreadPool.submit_eq_some.mp submitted
      exact ⟨_, .submit phase rfl, setDelivery_deliveries read, rfl, ⟨_, rfl⟩, .inl ⟨rfl, rfl⟩⟩
    · exact ⟨_, .of_setDelivery read rfl (.reject phase)⟩
  · next dispatch phase =>
    split at called <;> cases called
    · next answer => exact ⟨_, .of_setDelivery read rfl (.jobReturned phase answer)⟩
    · next answer => exact ⟨_, .of_setDelivery read rfl (.jobThrew phase answer)⟩
    · next answer => exact ⟨_, .of_setDelivery read rfl (.jobCancelled phase answer)⟩
    · next answer => exact ⟨_, .of_setDelivery read rfl (.timeOut phase answer)⟩
    · next answer => exact ⟨_, .of_setDelivery read rfl (.interrupt phase answer)⟩
  · next phase =>
    rw [basicAck] at called
    by_cases opened : queue.pool.isOpen delivery.channel = true
    · rw [if_pos opened] at called
      cases called
      refine ⟨_, .ack phase opened, ?_, rfl, ⟨queue.pool.threads, rfl⟩, .inr ⟨rfl, rfl, opened⟩⟩
      exact setDelivery_setPhase_deliveries read
    · rw [if_neg opened] at called
      cases called
      exact ⟨_, .of_setDelivery read rfl (.ackThrows phase (eq_false_of_ne_true opened))⟩
  · next dispatch phase =>
    obtain ⟨task, -, same⟩ := Option.map_eq_some_iff.mp called
    cases same
    exact ⟨_, .cancel phase, setDelivery_deliveries read, rfl, ⟨_, rfl⟩, .inl ⟨rfl, rfl⟩⟩
  · next dispatch phase =>
    rw [basicAck] at called
    by_cases opened : queue.pool.isOpen delivery.channel = true
    · rw [if_pos opened] at called
      cases called
      refine ⟨_, .lateAck phase opened, ?_, rfl, ⟨queue.pool.threads, rfl⟩, .inr ⟨rfl, rfl, opened⟩⟩
      exact setDelivery_setPhase_deliveries read
    · rw [if_neg opened] at called
      cases called
      exact ⟨_, .of_setDelivery read rfl (.lateAckThrows phase (eq_false_of_ne_true opened))⟩
  · next dispatch phase =>
    cases called
    exact ⟨_, .of_setDelivery read rfl (.callTimeoutFn phase)⟩
  · contradiction
  · contradiction
  · contradiction

/-- The delivery an action moves. -/
def moves : JobQueueAction β η → Option DeliveryRef
  | .callback ref _ | .handleException ref => some ref
  | _ => none

/-- What a step does to the deliveries. -/
inductive DeliveryStep (fromJson : β → Except Throwable δ) (queue next : JobQueue ε β δ η)
    (action : JobQueueAction β η) : Prop
  | same (same : next.deliveries = queue.deliveries)
  | delivered (ex : ExecutorRef) (body : β) (live : queue.pool.isLive ex = true)
      (more : next.deliveries = queue.deliveries ++ [{ channel := ex, body }])
  | advanced (ref : DeliveryRef) (before after : Delivery β δ) (asked : moves action = some ref)
      (read : queue.deliveries[ref]? = some before)
      (advance : Advance fromJson queue next ref before after)
      (moved : next.deliveries = queue.deliveries.set ref after)

private theorem handleException_advances {threads : PoolThreads ε (Job δ η)} {exception : Throwable}
    (read : queue.deliveries[ref]? = some delivery) (phase : delivery.phase = .threw exception)
    (closes : threads.pool = queue.pool.closeChannel delivery.channel .callbackException) :
    DeliveryStep fromJson queue ((queue.withPoolThreads threads).setPhase ref (.failed exception))
      (.handleException ref : JobQueueAction β η) :=
  .advanced ref delivery _ rfl read (.handleException phase closes) (modify_eq_set read)

theorem nextHandler_deliveries (queue : JobQueue ε β δ η) (task : ℕ) (execution : Execution η) :
    (queue.nextHandler task execution).deliveries = queue.deliveries := by
  rw [nextHandler]
  split <;> rfl

theorem step_deliveries [ExecutorFailureEnforcer ε] (stepped : step fromJson queue action = some next) :
    DeliveryStep fromJson queue next action := by
  cases step_spec stepped with
  | publish body same => subst same; exact .same rfl
  | deliver position ex broker body live handed same => subst same; exact .delivered ex body live rfl
  | callback ref delivery wait read called =>
    obtain ⟨after, spec⟩ := callback_spec read called
    exact .advanced ref delivery after rfl read spec.advance spec.deliveries
  | handleException ref delivery exception read phase same =>
    subst same
    exact handleException_advances read phase rfl
  | takeTask threads taken same => subst same; exact .same rfl
  | nextHandler task execution running idle same =>
    subst same
    exact .same (nextHandler_deliveries queue task execution)
  | handlerReturns task execution running inside same => subst same; exact .same rfl
  | handlerThrows task execution running inside same => subst same; exact .same rfl
  | onJob handler constructed same => subst same; exact .same rfl
  | pool action threads other moved same => subst same; exact .same rfl

theorem Advance.channel (advance : Advance fromJson queue next ref delivery after) :
    after.channel = delivery.channel := by
  cases advance <;> rfl

theorem Advance.body (advance : Advance fromJson queue next ref delivery after) :
    after.body = delivery.body := by
  cases advance <;> rfl

theorem Advance.acks_le (advance : Advance fromJson queue next ref delivery after) :
    delivery.acks ≤ after.acks := by
  cases advance <;> first | exact Nat.le_refl _ | exact Nat.le_succ _

/-- A delivery that is over stays as it is. -/
theorem Advance.isOver (advance : Advance fromJson queue next ref delivery after) :
    delivery.phase.isOver = false := by
  cases advance <;> simp only [*] <;> rfl

/-- The client's first look at a delivery is at its channel. -/
theorem Advance.of_received (advance : Advance fromJson queue next ref delivery after)
    (received : delivery.phase = .received) :
    (queue.pool.isOpen delivery.channel = true ∧ after = { delivery with phase := .accepted }) ∨
    (queue.pool.isOpen delivery.channel = false ∧
      after = { delivery with phase := .returned .channelClosed }) := by
  cases advance with
  | accept phase turn opened => exact .inl ⟨opened, rfl⟩
  | refuse phase turn closed => exact .inr ⟨closed, rfl⟩
  | _ => simp_all only [reduceCtorEq]

/-- A delivery is the same delivery before and after: its channel and its message do not change. -/
structure SameDelivery (before after : Delivery β δ) : Prop where
  channel : after.channel = before.channel
  body : after.body = before.body

/-- Every delivery is still there after a step. -/
theorem DeliveryStep.kept (step : DeliveryStep fromJson queue next action)
    (read : queue.deliveries[ref]? = some delivery) :
    ∃ after, next.deliveries[ref]? = some after ∧ SameDelivery delivery after ∧
      (after = delivery ∨ (moves action = some ref ∧ Advance fromJson queue next ref delivery after)) := by
  cases step with
  | same same => exact ⟨delivery, by rw [same, read], ⟨rfl, rfl⟩, .inl rfl⟩
  | delivered ex body live more =>
    exact ⟨delivery, by rw [more]; exact getElem?_alloc_of_some read, ⟨rfl, rfl⟩, .inl rfl⟩
  | advanced moving before moved asked known advance changed =>
    rw [changed, List.getElem?_set]
    by_cases here : moving = ref
    · subst here
      cases read.symm.trans known
      obtain ⟨inside, -⟩ := List.getElem?_eq_some_iff.mp read
      exact ⟨moved, by rw [if_pos rfl, if_pos inside], ⟨advance.channel, advance.body⟩, .inr ⟨asked, advance⟩⟩
    · exact ⟨delivery, by rw [if_neg here, read], ⟨rfl, rfl⟩, .inl rfl⟩

/-- Where a delivery comes from: it was there before the step and may have moved, or it is new. -/
inductive Origin (fromJson : β → Except Throwable δ) (queue next : JobQueue ε β δ η)
    (action : JobQueueAction β η) (ref : DeliveryRef) (after : Delivery β δ) : Prop
  | same (read : queue.deliveries[ref]? = some after)
  | advanced (before : Delivery β δ) (asked : moves action = some ref)
      (read : queue.deliveries[ref]? = some before)
      (advance : Advance fromJson queue next ref before after)
  | delivered (ex : ExecutorRef) (body : β) (live : queue.pool.isLive ex = true)
      (fresh : after = { channel := ex, body })

theorem DeliveryStep.origin (step : DeliveryStep fromJson queue next action)
    (read : next.deliveries[ref]? = some after) : Origin fromJson queue next action ref after := by
  cases step with
  | same same => exact .same (same ▸ read)
  | delivered ex body live more =>
    rw [more] at read
    rcases getElem?_alloc_eq_some.mp read with old | ⟨-, fresh⟩
    · exact .same old
    · exact .delivered ex body live fresh
  | advanced moving before moved asked known advance changed =>
    rw [changed, List.getElem?_set] at read
    by_cases here : moving = ref
    · subst here
      rw [if_pos rfl] at read
      split at read <;> cases read
      exact .advanced before asked known advance
    · rw [if_neg here] at read
      exact .same read

section Statements

variable [ExecutorFailureEnforcer ε] {dispatch : δ}

/-- `basicAck` on an open channel, as the statement of a callback. -/
theorem ack_statement (fromJson : β → Except Throwable δ) (read : queue.deliveries[ref]? = some delivery)
    (opened : queue.pool.isOpen delivery.channel = true) (wait : Wait) (after : Phase δ)
    (phase : (delivery.phase = .completed ∧ after = .returned .acknowledged) ∨
      ∃ dispatch, delivery.phase = .cancelled dispatch ∧ after = .ackTried dispatch) :
    ∃ next, step fromJson queue (.callback ref wait) = some next ∧ next.tasks = queue.tasks ∧
      next.deliveries[ref]? = some { delivery with phase := after, acks := delivery.acks + 1 } := by
  obtain ⟨inside, -⟩ := List.getElem?_eq_some_iff.mp read
  refine ⟨(({ queue with broker := queue.broker.ack ref } : JobQueue ε β δ η).setDelivery ref
    ({ · with acks := delivery.acks + 1 })).setPhase ref after, ?_, rfl, ?_⟩
  · rcases phase with ⟨phase, rfl⟩ | ⟨dispatch, phase, rfl⟩ <;>
      simp only [step, read, Option.bind_some, callback, phase, basicAck, if_pos opened]
  · exact (congrArg (·[ref]?) (setDelivery_setPhase_deliveries read)).trans (List.getElem?_set_self inside)

/-- `future.cancel`, as the statement of a callback. -/
theorem cancel_statement (fromJson : β → Except Throwable δ) {task : ℕ}
    (read : queue.deliveries[ref]? = some delivery) (phase : delivery.phase = .timedOut dispatch)
    (future : delivery.future = some task) :
    ∃ next, step fromJson queue (.callback ref .expired) = some next ∧
      next.deliveries[ref]? =
        some { delivery with phase := .cancelled dispatch, cancelRequested := true } ∧
      next.pool.executors = queue.pool.executors := by
  refine ⟨(queue.withThreads (queue.pool.threads.cancel task)).setDelivery ref
    ({ · with phase := .cancelled dispatch, cancelRequested := true }), ?_, ?_, rfl⟩
  · simp only [step, read, Option.bind_some, callback, phase, future, Option.map_some]
  · exact getElem?_modify_self read

end Statements

/-- What a step does to one task. -/
inductive TaskChange (handlers : HandlerPool η) (task : PoolTask (Job δ η)) : PoolTask (Job δ η) → Prop
  | take : TaskChange handlers task (task.take (Job.begin handlers))
  | cancel : TaskChange handlers task (task.settle .cancelled)
  | handle (execution : Execution η) (handler : η) (running : task.state = .running)
      (read : task.payload.execution = some execution) (idle : execution.running = none)
      (turn : handlers.turn execution = .handle handler) :
      TaskChange handlers task (task.advance
        ({ · with execution := some { execution with running := some handler } }))
  | finishHandler (execution : Execution η) (running : task.state = .running)
      (read : task.payload.execution = some execution) :
      TaskChange handlers task (task.advance ({ · with execution := some execution.finishHandler }))
  | finish (execution : Execution η) (running : task.state = .running)
      (read : task.payload.execution = some execution) (idle : execution.running = none)
      (turn : handlers.turn execution = .done) : TaskChange handlers task (task.finish .normal)
  | throw (running : task.state = .running) : TaskChange handlers task (task.finish .exceptional)

/-- What a step does to the tasks. -/
inductive TaskStep (queue next : JobQueue ε β δ η) : Prop
  | same (same : next.tasks = queue.tasks)
  | submitted (ref : DeliveryRef) (dispatch : δ)
      (more : next.tasks = queue.tasks ++ [{ payload := { delivery := ref, dispatch } }])
  | changed (task : ℕ) (before after : PoolTask (Job δ η)) (read : queue.tasks[task]? = some before)
      (change : TaskChange queue.handlers before after)
      (moved : next.tasks = queue.tasks.set task after)

theorem running_eq_some {task : ℕ} {execution : Execution η} :
    queue.running task = some execution ↔ ∃ found, queue.tasks[task]? = some found ∧
      found.state = .running ∧ found.payload.execution = some execution := by
  rw [running]
  constructor
  · intro read
    obtain ⟨found, known, rest⟩ := Option.bind_eq_some_iff.mp read
    split at rest
    · next active => exact ⟨found, known, active, rest⟩
    · contradiction
  · rintro ⟨found, known, active, rest⟩
    rw [known, Option.bind_some, if_pos active, rest]

/-- An assignment to a task, whether or not the task exists. -/
theorem taskStep_modify {task : ℕ} {update : PoolTask (Job δ η) → PoolTask (Job δ η)}
    (change : ∀ before, queue.tasks[task]? = some before → TaskChange queue.handlers before (update before))
    (moved : next.tasks = queue.tasks.modify task update) : TaskStep queue next := by
  cases read : queue.tasks[task]? with
  | none => exact .same (by rw [moved, modify_eq_of_fixed (by simp [read])])
  | some before => exact .changed task before _ read (change before read) (by rw [moved, modify_eq_set read])

/-- What a statement of the delivery callback does to the tasks. -/
inductive CallbackTasks (queue next : JobQueue ε β δ η) (ref : DeliveryRef) : Prop
  | same (same : next.tasks = queue.tasks)
  | submitted (dispatch : δ)
      (more : next.tasks = queue.tasks ++ [{ payload := { delivery := ref, dispatch } }])
  | cancelled (task : ℕ) (moved : next.tasks = queue.tasks.modify task (·.settle .cancelled))

theorem callback_tasks (called : callback fromJson queue ref delivery wait = some next) :
    CallbackTasks queue next ref := by
  rw [callback] at called
  split at called
  · split at called
    · split at called <;> cases called <;> exact .same rfl
    · contradiction
  · split at called <;> cases called <;> exact .same rfl
  · next dispatch phase =>
    split at called <;> cases called
    · next threads task submitted =>
      obtain ⟨-, -, rfl⟩ := ThreadPool.submit_eq_some.mp submitted
      exact .submitted dispatch rfl
    · exact .same rfl
  · split at called <;> cases called <;> exact .same rfl
  · rw [basicAck] at called
    by_cases opened : queue.pool.isOpen delivery.channel = true
    · rw [if_pos opened] at called
      cases called
      exact .same rfl
    · rw [if_neg opened] at called
      cases called
      exact .same rfl
  · obtain ⟨task, -, same⟩ := Option.map_eq_some_iff.mp called
    cases same
    exact .cancelled task rfl
  · rw [basicAck] at called
    by_cases opened : queue.pool.isOpen delivery.channel = true
    · rw [if_pos opened] at called
      cases called
      exact .same rfl
    · rw [if_neg opened] at called
      cases called
      exact .same rfl
  · cases called
    exact .same rfl
  · contradiction
  · contradiction
  · contradiction

private theorem CallbackTasks.taskStep (tasks : CallbackTasks queue next ref) : TaskStep queue next := by
  cases tasks with
  | same same => exact .same same
  | submitted dispatch more => exact .submitted ref dispatch more
  | cancelled task moved => exact taskStep_modify (fun _ _ => .cancel) moved

private theorem nextHandler_tasks {task : ℕ} {execution : Execution η}
    (running : queue.running task = some execution) (idle : execution.running = none) :
    TaskStep queue (queue.nextHandler task execution) := by
  obtain ⟨found, read, active, carried⟩ := running_eq_some.mp running
  rw [nextHandler]
  split
  · next turn =>
    refine taskStep_modify (fun before known => ?_) rfl
    cases read.symm.trans known
    exact .finish execution active carried idle turn
  · refine taskStep_modify (fun before known => ?_) rfl
    cases read.symm.trans known
    exact .throw active
  · next handler turn =>
    refine taskStep_modify (fun before known => ?_) rfl
    cases read.symm.trans known
    exact .handle execution handler active carried idle turn

variable [ExecutorFailureEnforcer ε]

theorem step_tasks (stepped : step fromJson queue action = some next) : TaskStep queue next := by
  cases step_spec stepped with
  | publish body same => subst same; exact .same rfl
  | deliver position ex broker body live handed same => subst same; exact .same rfl
  | callback ref delivery wait read called => exact (callback_tasks called).taskStep
  | handleException ref delivery exception read phase same => subst same; exact .same rfl
  | takeTask threads taken same =>
    subst same
    obtain ⟨task, rest, -, -, rfl⟩ := ThreadPool.take_eq_some.mp taken
    exact taskStep_modify (fun _ _ => .take) rfl
  | nextHandler task execution running idle same =>
    subst same
    exact nextHandler_tasks running idle
  | handlerReturns task execution running inside same =>
    subst same
    obtain ⟨found, read, active, carried⟩ := running_eq_some.mp running
    refine taskStep_modify (fun before known => ?_) rfl
    cases read.symm.trans known
    exact .finishHandler execution active carried
  | handlerThrows task execution running inside same =>
    subst same
    obtain ⟨found, read, active, carried⟩ := running_eq_some.mp running
    refine taskStep_modify (fun before known => ?_) rfl
    cases read.symm.trans known
    exact .throw active
  | onJob handler constructed same => subst same; exact .same rfl
  | pool action threads other moved same =>
    subst same
    exact .same (PoolThreads.step_evolves moved).tasks

omit [ExecutorFailureEnforcer ε] in
/-- An assignment after which a task answers `normal` although it cannot have made it answer so. -/
theorem normal_of_modify {tasks : List (PoolTask (Job δ η))} {task other : ℕ} {ended : PoolTask (Job δ η)}
    {update : PoolTask (Job δ η) → PoolTask (Job δ η)}
    (read : (tasks.modify other update)[task]? = some ended) (normal : ended.future = .normal)
    (kept : ∀ before, (update before).future = .normal → before.future = .normal) :
    ∃ before, tasks[task]? = some before ∧ before.future = .normal := by
  obtain ⟨before, known, change⟩ := getElem?_modify_eq_some.mp read
  refine ⟨before, known, ?_⟩
  split at change
  · exact kept before (change ▸ normal)
  · exact change ▸ normal

omit [ExecutorFailureEnforcer ε] in
private theorem normal_of_settle {task : PoolTask (Job δ η)} {answer : FutureState} (other : answer ≠ .normal)
    (normal : (task.settle answer).future = .normal) : task.future = .normal := by
  rw [PoolTask.settle_future] at normal
  split at normal
  · exact absurd normal other
  · exact normal

/-- A future comes to answer `normal` only when the loop over the handlers of its job ends by itself. -/
theorem step_normal (stepped : step fromJson queue action = some next) {task : ℕ}
    {ended : PoolTask (Job δ η)} (read : next.tasks[task]? = some ended) (normal : ended.future = .normal) :
    (∃ before, queue.tasks[task]? = some before ∧ before.future = .normal) ∨
      ∃ before execution, action = .nextHandler task ∧ queue.tasks[task]? = some before ∧
        before.state = .running ∧ before.future = .pending ∧ before.payload.execution = some execution ∧
        execution.running = none ∧ queue.handlers.turn execution = .done ∧ ended = before.finish .normal := by
  cases step_spec stepped with
  | publish body same => subst same; exact .inl ⟨ended, read, normal⟩
  | deliver position ex broker body live handed same => subst same; exact .inl ⟨ended, read, normal⟩
  | callback ref delivery wait known called =>
    cases callback_tasks called with
    | same same => exact .inl ⟨ended, same ▸ read, normal⟩
    | submitted dispatch more =>
      rw [more] at read
      rcases getElem?_alloc_eq_some.mp read with old | ⟨-, rfl⟩
      · exact .inl ⟨ended, old, normal⟩
      · contradiction
    | cancelled other moved =>
      rw [moved] at read
      exact .inl (normal_of_modify read normal fun _ => normal_of_settle (by decide))
  | handleException ref delivery exception known phase same => subst same; exact .inl ⟨ended, read, normal⟩
  | takeTask threads taken same =>
    subst same
    obtain ⟨other, rest, -, -, rfl⟩ := ThreadPool.take_eq_some.mp taken
    exact .inl (normal_of_modify read normal fun _ kept => by rwa [PoolTask.take_future] at kept)
  | nextHandler other execution running idle same =>
    subst same
    rw [nextHandler] at read
    split at read
    · next turn =>
      obtain ⟨before, known, change⟩ := getElem?_modify_eq_some.mp read
      split at change
      · next here =>
        subst here
        obtain ⟨found, sameTask, active, carried⟩ := running_eq_some.mp running
        cases known.symm.trans sameTask
        by_cases pending : before.future = .pending
        · exact .inr ⟨before, execution, rfl, known, active, pending, carried, idle, turn, change⟩
        · rw [change, PoolTask.finish_future, if_neg pending] at normal
          exact .inl ⟨before, known, normal⟩
      · exact .inl ⟨before, known, change ▸ normal⟩
    · exact .inl (normal_of_modify read normal fun _ => normal_of_settle (by decide))
    · exact .inl (normal_of_modify read normal fun _ => id)
  | handlerReturns other execution running inside same =>
    subst same
    exact .inl (normal_of_modify read normal fun _ => id)
  | handlerThrows other execution running inside same =>
    subst same
    exact .inl (normal_of_modify read normal fun _ => normal_of_settle (by decide))
  | onJob handler constructed same => subst same; exact .inl ⟨ended, read, normal⟩
  | pool action threads other moved same =>
    subst same
    have tasks : (queue.withPoolThreads threads).tasks = queue.tasks :=
      (PoolThreads.step_evolves moved).tasks
    exact .inl ⟨ended, tasks ▸ read, normal⟩

/-- What is left of the pool and the handlers after a step: executors have only been added, each of
them has only aged, and handlers have only been added. -/
structure Older (queue next : JobQueue ε β δ η) : Prop where
  executors : ∀ (ex : ExecutorRef) (before : Executor), queue.pool.executors[ex]? = some before →
    ∃ after, next.pool.executors[ex]? = some after ∧ Ages before after
  handlers : queue.handlers.handlers <+: next.handlers.handlers

omit [ExecutorFailureEnforcer ε] in
private theorem Older.of_same (executors : next.pool.executors = queue.pool.executors)
    (handlers : next.handlers = queue.handlers) : Older queue next :=
  ⟨fun _ before read => ⟨before, executors ▸ read, .refl before⟩, by rw [handlers]⟩

omit [ExecutorFailureEnforcer ε] in
private theorem Older.of_evolves (evolves : Evolves queue.pool next.pool)
    (handlers : next.handlers = queue.handlers) : Older queue next :=
  ⟨evolves.executors, by rw [handlers]⟩

theorem step_older (stepped : step fromJson queue action = some next) : Older queue next := by
  cases step_spec stepped with
  | publish body same => subst same; exact .of_same rfl rfl
  | deliver position ex broker body live handed same => subst same; exact .of_same rfl rfl
  | callback ref delivery wait read called =>
    obtain ⟨after, spec⟩ := callback_spec read called
    obtain ⟨threads, same⟩ := spec.threads
    exact .of_same (congrArg (·.pool.executors) same) spec.handlers
  | handleException ref delivery exception read phase same =>
    subst same
    exact .of_evolves (.update fun _ => .closeBy) rfl
  | takeTask threads taken same => subst same; exact .of_same rfl rfl
  | nextHandler task execution running idle same =>
    subst same
    rw [nextHandler]
    split <;> exact .of_same rfl rfl
  | handlerReturns task execution running inside same => subst same; exact .of_same rfl rfl
  | handlerThrows task execution running inside same => subst same; exact .of_same rfl rfl
  | onJob handler constructed same =>
    subst same
    exact ⟨fun _ before read => ⟨before, read, .refl before⟩, List.prefix_append _ _⟩
  | pool action threads other moved same =>
    subst same
    exact .of_evolves (PoolThreads.step_evolves moved) rfl

omit [ExecutorFailureEnforcer ε] in
theorem isOpen_of_executors {ex : ExecutorRef} (same : next.pool.executors = queue.pool.executors) :
    next.pool.isOpen ex = queue.pool.isOpen ex := by
  rw [JobQueueExecutorPool.isOpen, same, ← JobQueueExecutorPool.isOpen]

/-- A step that closes a channel leaves the deliveries alone, unless it is the client that closes the
channel of a delivery whose callback has thrown. -/
theorem step_closes {ex : ExecutorRef} (stepped : step fromJson queue action = some next)
    (opened : queue.pool.isOpen ex = true) (closed : next.pool.isOpen ex = false) :
    next.deliveries = queue.deliveries ∨ ∃ ref delivery exception,
      queue.deliveries[ref]? = some delivery ∧ delivery.phase = .threw exception ∧
      next.deliveries = queue.deliveries.set ref { delivery with phase := .failed exception } := by
  have changed : next.pool.executors ≠ queue.pool.executors := by
    intro same
    rw [isOpen_of_executors same, opened] at closed
    contradiction
  cases step_spec stepped with
  | publish body same => subst same; exact absurd rfl changed
  | deliver position ex broker body live handed same => subst same; exact absurd rfl changed
  | callback ref delivery wait read called =>
    obtain ⟨after, spec⟩ := callback_spec read called
    obtain ⟨threads, same⟩ := spec.threads
    exact absurd (congrArg (·.pool.executors) same) changed
  | handleException ref delivery exception read phase same =>
    subst same
    exact .inr ⟨ref, delivery, exception, read, phase, modify_eq_set read⟩
  | takeTask threads taken same => subst same; exact absurd rfl changed
  | nextHandler task execution running idle same =>
    subst same
    exact .inl (nextHandler_deliveries queue task execution)
  | handlerReturns task execution running inside same => subst same; exact absurd rfl changed
  | handlerThrows task execution running inside same => subst same; exact absurd rfl changed
  | onJob handler constructed same => subst same; exact absurd rfl changed
  | pool action threads other moved same => subst same; exact .inl rfl

/-- The pool's own threads move by a step of the pool alone. -/
theorem step_threads (stepped : step fromJson queue action = some next) :
    next.threads.activities = queue.threads.activities ∨
      ∃ poolAction, action = .pool poolAction ∧ queue.threads.step poolAction = some next.threads := by
  cases step_spec stepped with
  | publish body same => subst same; exact .inl rfl
  | deliver position ex broker body live handed same => subst same; exact .inl rfl
  | callback ref delivery wait read called =>
    obtain ⟨after, spec⟩ := callback_spec read called
    obtain ⟨threads, same⟩ := spec.threads
    exact .inl (congrArg (·.activities) same)
  | handleException ref delivery exception read phase same => subst same; exact .inl rfl
  | takeTask threads taken same => subst same; exact .inl rfl
  | nextHandler task execution running idle same =>
    subst same
    rw [nextHandler]
    split <;> exact .inl rfl
  | handlerReturns task execution running inside same => subst same; exact .inl rfl
  | handlerThrows task execution running inside same => subst same; exact .inl rfl
  | onJob handler constructed same => subst same; exact .inl rfl
  | pool action threads other moved same => subst same; exact .inr ⟨action, rfl, moved⟩

namespace Older

variable {ex : ExecutorRef} (older : Older queue next)
include older

omit [ExecutorFailureEnforcer ε] in
theorem length_le : queue.pool.executors.length ≤ next.pool.executors.length := by
  by_contra fewer
  rw [Nat.not_le] at fewer
  obtain ⟨after, read, -⟩ := older.executors _ _ (List.getElem?_eq_getElem fewer)
  rw [List.getElem?_eq_none (Nat.le_refl _)] at read
  contradiction

omit [ExecutorFailureEnforcer ε] in
/-- No channel is ever opened again. -/
theorem isOpen (opened : next.pool.isOpen ex = true) (inside : ex < queue.pool.executors.length) :
    queue.pool.isOpen ex = true := by
  obtain ⟨after, read, stillOpen⟩ := isOpen_iff.mp opened
  obtain ⟨_, readAfter, ages⟩ := older.executors ex _ (List.getElem?_eq_getElem inside)
  cases read.symm.trans readAfter
  exact isOpen_iff.mpr ⟨_, List.getElem?_eq_getElem inside, ages.isOpen stillOpen⟩

end Older

end RabbitJobQueue.Model.JobQueue
