import RabbitJobQueue.Machine.Broker
import RabbitJobQueue.Machine.ThreadPool
import RabbitJobQueue.Machine.Run
import RabbitJobQueue.Model.Delivery

/-! # The job queue dispatcher

A dispatcher listens for error and for success notifications. Its constructor subscribes to the two
queues one after the other, so notifications arrive before a handler can be registered. The two
delivery callbacks are the same code over two queues: they hand a task to `workers` and return; the
task decodes the notification, calls the handlers and, whatever has come of that, acknowledges the
message.
-/

namespace RabbitJobQueue.Model

open Machine

/-- The queues a dispatcher listens to. -/
inductive NotificationKind
  | error
  | success
deriving DecidableEq, Repr

/-- A notification the broker has handed out, the task its callback has handed to `workers`, and how
often `basicAck` has gone through for it. -/
structure Notified (β : Type) where
  body : β
  task : Option ℕ := none
  acks : ℕ := 0
deriving DecidableEq, Repr

/-- Where a notification's task is: in front of `fromJson`, inside `execute`, or in the `finally`
block, with the execution and the exception that have led there. -/
inductive Stage (δ η : Type)
  | decoding
  | executing (notification : δ) (execution : Execution η)
  | acknowledging (execution : Option (Execution η)) (exception : Option Throwable)
deriving DecidableEq, Repr

def Stage.execution {δ η : Type} : Stage δ η → Option (Execution η)
  | .decoding => none
  | .executing _ execution => some execution
  | .acknowledging execution _ => execution

/-- The task `{ try { execute(fromJson(msg.body)) } finally { basicAck(...) } }`. -/
structure NotificationTask (β δ η : Type) where
  kind : NotificationKind
  delivery : DeliveryRef
  body : β
  stage : Stage δ η := .decoding
deriving DecidableEq, Repr

/-- One of the two queues: the broker behind it, the channel `initCallbacks` has opened for it, what
has been delivered on that channel, and the handlers of its notifications. -/
structure NotificationQueue (β η : Type) where
  broker : Broker Unit β
  channel : Option Channel := none
  deliveries : List (Notified β) := []
  handlers : HandlerPool η := {}
deriving DecidableEq, Repr

/-- The dispatcher; `initializing` lists what is left of `initCallbacks`. -/
structure JobQueueDispatcher (β δ η : Type) where
  errors : NotificationQueue β η
  successes : NotificationQueue β η
  workers : ThreadPool (NotificationTask β δ η)
  initializing : List NotificationKind := [.error, .success]
deriving DecidableEq, Repr

inductive DispatcherAction (β η : Type)
  /-- An executor sends a notification. -/
  | publish (kind : NotificationKind) (body : β)
  /-- The constructor subscribes to its next queue. -/
  | initCallbacks
  /-- The broker hands a ready message to the dispatcher's consumer. -/
  | deliver (kind : NotificationKind) (position : ℕ)
  /-- The client runs the delivery callback. -/
  | callback (kind : NotificationKind) (delivery : DeliveryRef)
  /-- An idle worker takes the oldest task. -/
  | takeTask
  /-- A task on a worker executes its next statement, or its next turn of the loop over the handlers. -/
  | work (task : ℕ)
  /-- The handler a task is in returns, or throws. -/
  | handlerEnds (task : ℕ) (exception : Option Throwable)
  /-- `onError` or `onSuccess`, once the constructor has returned. -/
  | register (kind : NotificationKind) (handler : η)
  /-- The broker or the network closes a channel. -/
  | close (kind : NotificationKind) (cause : CloseCause)
deriving DecidableEq, Repr

namespace DispatcherAction

def onError {β η : Type} (handler : η) : DispatcherAction β η := .register .error handler

def onSuccess {β η : Type} (handler : η) : DispatcherAction β η := .register .success handler

end DispatcherAction

namespace NotificationQueue

variable {β η : Type} (queue : NotificationQueue β η)

/-- The queue's channel has been opened, and not closed. -/
def isOpen : Bool := queue.channel.any (·.isOpen)

/-- The client runs the callbacks of a channel in the order of the deliveries. -/
def isNext (ref : DeliveryRef) : Bool := (queue.deliveries.take ref).all (·.task.isSome)

/-- `basicAck` on an open channel. -/
def basicAck (ref : DeliveryRef) : NotificationQueue β η :=
  { queue with
    broker := queue.broker.ack ref
    deliveries := queue.deliveries.modify ref fun delivery => { delivery with acks := delivery.acks + 1 } }

end NotificationQueue

namespace JobQueueDispatcher

variable {β δ η : Type}

/-- A dispatcher whose constructor is about to call `initCallbacks`, with notifications waiting. -/
def starting (workers : ℕ) (waiting : NotificationKind → List β) : JobQueueDispatcher β δ η where
  errors := { broker := { ready := waiting .error } }
  successes := { broker := { ready := waiting .success } }
  workers := { size := workers }

section Accessors

variable (dispatcher : JobQueueDispatcher β δ η)

def queue : NotificationKind → NotificationQueue β η
  | .error => dispatcher.errors
  | .success => dispatcher.successes

def setQueue (kind : NotificationKind) (queue : NotificationQueue β η) : JobQueueDispatcher β δ η :=
  match kind with
  | .error => { dispatcher with errors := queue }
  | .success => { dispatcher with successes := queue }

def withWorkers (workers : ThreadPool (NotificationTask β δ η)) : JobQueueDispatcher β δ η :=
  { dispatcher with workers }

def tasks : List (PoolTask (NotificationTask β δ η)) := dispatcher.workers.tasks

/-- A task that is on a worker. -/
def running (task : ℕ) : Option (NotificationTask β δ η) :=
  (dispatcher.tasks[task]?).bind fun task => if task.state = .running then some task.payload else none

def setStage (task : ℕ) (stage : Stage δ η) : JobQueueDispatcher β δ η :=
  dispatcher.withWorkers (dispatcher.workers.advance task ({ · with stage }))

/-- The next statement of a task: `fromJson`, a turn of the loop in `execute`, or `basicAck`. -/
def work (fromJson : NotificationKind → β → Except Throwable δ) (task : ℕ)
    (job : NotificationTask β δ η) : Option (JobQueueDispatcher β δ η) :=
  match job.stage with
  | .decoding =>
    match fromJson job.kind job.body with
    | .ok notification =>
      some (dispatcher.setStage task
        (.executing notification (dispatcher.queue job.kind).handlers.execute))
    | .error exception => some (dispatcher.setStage task (.acknowledging none (some exception)))
  | .executing notification execution =>
    if execution.running.isSome then none
    else match (dispatcher.queue job.kind).handlers.turn execution with
      | .done => some (dispatcher.setStage task (.acknowledging (some execution) none))
      | .threw =>
        some (dispatcher.setStage task (.acknowledging (some execution) (some .concurrentModification)))
      | .handle handler =>
        some (dispatcher.setStage task
          (.executing notification { execution with running := some handler }))
  | .acknowledging _ exception =>
    if (dispatcher.queue job.kind).isOpen then
      some ((dispatcher.withWorkers (dispatcher.workers.finish task
        (if exception.isNone then .normal else .exceptional))).setQueue job.kind
          ((dispatcher.queue job.kind).basicAck job.delivery))
    else some (dispatcher.withWorkers (dispatcher.workers.finish task .exceptional))

/-- The handler a task is in comes back. An exception leaves the loop. -/
def handlerEnds (task : ℕ) (job : NotificationTask β δ η) (exception : Option Throwable) :
    Option (JobQueueDispatcher β δ η) :=
  match job.stage with
  | .executing notification execution =>
    if execution.running.isSome then
      some (dispatcher.setStage task
        (if exception.isNone then .executing notification execution.finishHandler
        else .acknowledging (some execution) exception))
    else none
  | _ => none

/-- The delivery callback: `workers.execute`. -/
def callback (kind : NotificationKind) (ref : DeliveryRef) : Option (JobQueueDispatcher β δ η) :=
  ((dispatcher.queue kind).deliveries[ref]?).bind fun delivery =>
    if delivery.task.isNone && (dispatcher.queue kind).isNext ref then
      (dispatcher.workers.submit { kind, delivery := ref, body := delivery.body }).map
        fun (workers, task) => (dispatcher.withWorkers workers).setQueue kind
          { dispatcher.queue kind with
            deliveries := (dispatcher.queue kind).deliveries.set ref { delivery with task := some task } }
    else none

end Accessors

def step (fromJson : NotificationKind → β → Except Throwable δ) (dispatcher : JobQueueDispatcher β δ η) :
    DispatcherAction β η → Option (JobQueueDispatcher β δ η)
  | .publish kind body => some (dispatcher.setQueue kind
      { dispatcher.queue kind with broker := (dispatcher.queue kind).broker.publish body })
  | .initCallbacks =>
    match dispatcher.initializing with
    | [] => none
    | kind :: rest => some ({ dispatcher with initializing := rest }.setQueue kind
        { dispatcher.queue kind with channel := some {} })
  | .deliver kind position =>
    if (dispatcher.queue kind).isOpen then
      ((dispatcher.queue kind).broker.deliver position (dispatcher.queue kind).deliveries.length ()).map
        fun (broker, body) => dispatcher.setQueue kind { dispatcher.queue kind with
          broker, deliveries := (dispatcher.queue kind).deliveries ++ [{ body }] }
    else none
  | .callback kind ref => dispatcher.callback kind ref
  | .takeTask => (dispatcher.workers.take id).map dispatcher.withWorkers
  | .work task => (dispatcher.running task).bind fun job => dispatcher.work fromJson task job
  | .handlerEnds task exception =>
    (dispatcher.running task).bind fun job => dispatcher.handlerEnds task job exception
  | .register kind handler =>
    if dispatcher.initializing.isEmpty then
      some (dispatcher.setQueue kind { dispatcher.queue kind with
        handlers := (dispatcher.queue kind).handlers.register handler })
    else none
  | .close kind cause =>
    if (dispatcher.queue kind).isOpen then
      some (dispatcher.setQueue kind { dispatcher.queue kind with
        channel := (dispatcher.queue kind).channel.map (·.close cause)
        broker := (dispatcher.queue kind).broker.requeue fun _ => true })
    else none

end JobQueueDispatcher

end RabbitJobQueue.Model
