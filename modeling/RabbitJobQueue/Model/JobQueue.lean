import RabbitJobQueue.Machine.Broker
import RabbitJobQueue.Model.Delivery
import RabbitJobQueue.Model.PoolThreads

/-! # The job queue

One executor pool, the client library that runs its callbacks, and the broker behind them. The
broker hands ready messages to open channels, as many as it likes, and takes back what a closed
channel has left unacknowledged. The client runs the delivery callbacks of a channel one at a time
and in order, and closes the channel when one of them throws. Everything else interleaves.
-/

namespace RabbitJobQueue.Model

open Machine

structure JobQueue (ε β δ η : Type) where
  threads : PoolThreads ε (Job δ η)
  broker : Broker ExecutorRef β
  deliveries : List (Delivery β δ) := []
  handlers : HandlerPool η := {}

inductive JobQueueAction (β η : Type)
  /-- A dispatcher publishes a message. -/
  | publish (body : β)
  /-- The broker hands a ready message to the consumer of an executor. -/
  | deliver (position : ℕ) (ex : ExecutorRef)
  /-- The delivery callback executes its next statement. -/
  | callback (delivery : DeliveryRef) (wait : Wait)
  /-- The client closes the channel of a delivery whose callback has thrown. -/
  | handleException (delivery : DeliveryRef)
  /-- An idle worker thread takes the oldest task. -/
  | takeTask
  /-- A running job gets to the next turn of its loop over the handlers. -/
  | nextHandler (task : ℕ)
  /-- The handler a job is in returns or throws. -/
  | handlerEnds (task : ℕ) (normally : Bool)
  /-- `JobQueueExecutor.onJob`, once the constructor has returned. -/
  | onJob (handler : η)
  /-- The threads of the pool, the broker and the network, as far as they concern the pool. -/
  | pool (action : PoolAction)

/-- Closing a channel because its callback has thrown; the client does that in `handleException`. -/
def PoolAction.isExceptionHandling : PoolAction → Bool
  | .close _ cause => cause = .callbackException
  | _ => false

namespace JobQueue

variable {ε β δ η : Type}

/-- A pool about to `start`, with messages waiting in the queue. -/
def starting (pool : JobQueueExecutorPool ε (Job δ η)) (waiting : List β) : JobQueue ε β δ η :=
  { threads := .starting pool, broker := { ready := waiting } }

section Accessors

variable (queue : JobQueue ε β δ η)

def pool : JobQueueExecutorPool ε (Job δ η) := queue.threads.pool

def tasks : List (PoolTask (Job δ η)) := queue.pool.threads.tasks

def setDelivery (ref : DeliveryRef) (change : Delivery β δ → Delivery β δ) : JobQueue ε β δ η :=
  { queue with deliveries := queue.deliveries.modify ref change }

def setPhase (ref : DeliveryRef) (phase : Phase δ) : JobQueue ε β δ η :=
  queue.setDelivery ref ({ · with phase })

def withThreads (threads : ThreadPool (Job δ η)) : JobQueue ε β δ η :=
  { queue with threads := { queue.threads with pool := { queue.pool with threads } } }

/-- The pool's threads have moved; what a channel closed by that held goes back to the queue. -/
def withPoolThreads (threads : PoolThreads ε (Job δ η)) : JobQueue ε β δ η :=
  { queue with
    threads
    broker := queue.broker.requeue fun ex => !threads.pool.isOpen ex }

/-- The state of a delivery's future. -/
def answer (delivery : Delivery β δ) : Option FutureState :=
  (delivery.future.bind fun task => queue.tasks[task]?).map (·.future)

/-- Every earlier delivery of the channel is over. -/
def isNext (ref : DeliveryRef) (ex : ExecutorRef) : Bool :=
  (queue.deliveries.take ref).all fun earlier => earlier.channel != ex || earlier.phase.isOver

/-- `channel.basicAck`. -/
def basicAck (ref : DeliveryRef) (delivery : Delivery β δ) : Except Throwable (JobQueue ε β δ η) :=
  if queue.pool.isOpen delivery.channel then
    .ok ({ queue with broker := queue.broker.ack ref }.setDelivery ref
      ({ · with acks := delivery.acks + 1 }))
  else .error .alreadyClosed

end Accessors

/-- One statement of the delivery callback. -/
def callback (fromJson : β → Except Throwable δ) (queue : JobQueue ε β δ η) (ref : DeliveryRef)
    (delivery : Delivery β δ) (wait : Wait) : Option (JobQueue ε β δ η) :=
  match delivery.phase with
  | .received =>
    if queue.isNext ref delivery.channel then
      if queue.pool.isOpen delivery.channel then some (queue.setPhase ref .accepted)
      else some (queue.setPhase ref (.returned .channelClosed))
    else none
  | .accepted =>
    match fromJson delivery.body with
    | .ok dispatch => some (queue.setPhase ref (.decoded dispatch))
    | .error exception => some (queue.setPhase ref (.threw exception))
  | .decoded dispatch =>
    match queue.pool.threads.submit { delivery := ref, dispatch } with
    | some (threads, task) =>
      some ((queue.withThreads threads).setDelivery ref
        ({ · with phase := .awaiting dispatch, future := some task }))
    | none => some (queue.setPhase ref (.threw .rejectedExecution))
  | .awaiting dispatch =>
    match queue.answer delivery, wait with
    | some .normal, .answered => some (queue.setPhase ref .completed)
    | some .exceptional, .answered => some (queue.setPhase ref (.threw .execution))
    | some .cancelled, .answered => some (queue.setPhase ref (.threw .cancellation))
    | some .pending, .expired =>
      some (queue.setDelivery ref ({ · with phase := .timedOut dispatch, timedOut := true }))
    | some .pending, .interrupted => some (queue.setPhase ref (.threw .interrupted))
    | _, _ => none
  | .completed =>
    match queue.basicAck ref delivery with
    | .ok acked => some (acked.setPhase ref (.returned .acknowledged))
    | .error exception => some (queue.setPhase ref (.threw exception))
  | .timedOut dispatch =>
    delivery.future.map fun task => (queue.withThreads (queue.pool.threads.cancel task)).setDelivery ref
      ({ · with phase := .cancelled dispatch, cancelRequested := true })
  | .cancelled dispatch =>
    match queue.basicAck ref delivery with
    | .ok acked => some (acked.setPhase ref (.ackTried dispatch))
    | .error _ => some (queue.setPhase ref (.ackTried dispatch))
  | .ackTried dispatch =>
    some (queue.setDelivery ref ({ · with
      phase := .returned .timedOut, timeoutCalls := delivery.timeoutCalls ++ [dispatch] }))
  | .returned _ | .threw _ | .failed _ => none

/-- The loop of a running job's `handlers.execute`, between two handlers. -/
def nextHandler (queue : JobQueue ε β δ η) (task : ℕ) (execution : Execution η) : JobQueue ε β δ η :=
  match queue.handlers.turn execution with
  | .done => queue.withThreads (queue.pool.threads.finish task .normal)
  | .threw => queue.withThreads (queue.pool.threads.finish task .exceptional)
  | .handle handler => queue.withThreads (queue.pool.threads.advance task
      ({ · with execution := some { execution with running := some handler } }))

/-- The execution of a job that is on a thread. -/
def running (queue : JobQueue ε β δ η) (task : ℕ) : Option (Execution η) :=
  (queue.tasks[task]?).bind fun task =>
    if task.state = .running then task.payload.execution else none

variable [ExecutorFailureEnforcer ε]

def step (fromJson : β → Except Throwable δ) (queue : JobQueue ε β δ η) :
    JobQueueAction β η → Option (JobQueue ε β δ η)
  | .publish body => some { queue with broker := queue.broker.publish body }
  | .deliver position ex =>
    if queue.pool.isLive ex then
      (queue.broker.deliver position queue.deliveries.length ex).map fun (broker, body) =>
        { queue with broker, deliveries := queue.deliveries ++ [{ channel := ex, body }] }
    else none
  | .callback ref wait =>
    (queue.deliveries[ref]?).bind fun delivery => callback fromJson queue ref delivery wait
  | .handleException ref => (queue.deliveries[ref]?).bind fun delivery =>
    match delivery.phase with
    | .threw exception =>
      some ((queue.withPoolThreads { queue.threads with
        pool := queue.pool.closeChannel delivery.channel .callbackException }).setPhase ref
          (.failed exception))
    | _ => none
  | .takeTask => (queue.pool.threads.take (Job.begin queue.handlers)).map queue.withThreads
  | .nextHandler task => (queue.running task).bind fun execution =>
    if execution.running.isNone then some (queue.nextHandler task execution) else none
  | .handlerEnds task normally => (queue.running task).bind fun execution =>
    if execution.running.isSome then
      some (queue.withThreads (if normally then
          queue.pool.threads.advance task ({ · with execution := some execution.finishHandler })
        else queue.pool.threads.finish task .exceptional))
    else none
  | .onJob handler =>
    if queue.threads.activities.head? = some [] then
      some { queue with handlers := queue.handlers.register handler }
    else none
  | .pool action =>
    if action.isExceptionHandling then none
    else (queue.threads.step action).map queue.withPoolThreads

end JobQueue

end RabbitJobQueue.Model
