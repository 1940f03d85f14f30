import RabbitJobQueue.Model.JobDispatch
import RabbitJobQueue.Model.JobQueue
import RabbitJobQueue.Model.JobQueueDispatcher
import RabbitJobQueue.Model.Notifications

/-! # The exchange between dispatcher and executor

The job queue and the notification queues with what is really sent over them: the bytes of JSON texts. A
dispatcher sends jobs and receives notifications, an executor the other way round. Nothing gets into a
queue but what one of the library's methods has sent there.
-/

namespace RabbitJobQueue.Model

open Machine

/-- What the handlers of a dispatcher are given. -/
inductive Notification (ι : Type)
  | error (err : ErrorNotification ι)
  | success (msg : SuccessNotification ι)

namespace Notification

variable {ι : Type} [Textual ι]

def kind : Notification ι → NotificationKind
  | .error _ => .error
  | .success _ => .success

/-- The body `sendError` or `sendSuccess` publishes. -/
def toBytes (mapper : ObjectMapper) : Notification ι → ByteArray
  | .error err => err.toBytes mapper
  | .success msg => msg.toBytes mapper

/-- What a task of the dispatcher makes of a delivery of this kind. -/
def fromBytes (mapper : ObjectMapper) (kind : NotificationKind) (bytes : ByteArray) :
    Except Throwable (Notification ι) :=
  match kind with
  | .error => .error <$> ErrorNotification.fromBytes mapper bytes
  | .success => .success <$> SuccessNotification.fromBytes mapper bytes

end Notification

/-- `η` and `κ` are the handlers of jobs and of notifications. -/
structure Exchange (ε ι θ η κ : Type) where
  executor : JobQueue ε ByteArray (JobDispatch ι θ) η
  dispatcher : JobQueueDispatcher ByteArray (Notification ι) κ

inductive ExchangeAction (ι θ η κ : Type)
  /-- `JobQueueDispatcher.dispatch`. -/
  | dispatch (job : JobDispatch ι θ)
  /-- `JobQueueExecutor.sendError`, `JobQueueExecutor.sendSuccess`. -/
  | send (notification : Notification ι)
  /-- Whatever else happens to the executor and its queue. -/
  | executor (action : JobQueueAction ByteArray η)
  /-- Whatever else happens to the dispatcher and its queues. -/
  | dispatcher (action : DispatcherAction ByteArray κ)

namespace Exchange

variable {ε ι θ η κ : Type}

/-- Both sides are about to start, over empty queues. -/
def starting (pool : JobQueueExecutorPool ε (Job (JobDispatch ι θ) η)) (workers : ℕ) : Exchange ε ι θ η κ where
  executor := .starting pool []
  dispatcher := .starting workers fun _ => []

variable [Textual ι] [Textual θ] (mapper : ObjectMapper)

def onDispatcher (exchange : Exchange ε ι θ η κ) (action : DispatcherAction ByteArray κ) :
    Option (Exchange ε ι θ η κ) :=
  (JobQueueDispatcher.step (Notification.fromBytes mapper) exchange.dispatcher action).map
    fun dispatcher => { exchange with dispatcher }

variable [ExecutorFailureEnforcer ε]

def onExecutor (exchange : Exchange ε ι θ η κ) (action : JobQueueAction ByteArray η) :
    Option (Exchange ε ι θ η κ) :=
  (JobQueue.step (JobDispatch.fromBytes mapper) exchange.executor action).map
    fun executor => { exchange with executor }

/-- Nobody else sends messages. -/
def step (exchange : Exchange ε ι θ η κ) : ExchangeAction ι θ η κ → Option (Exchange ε ι θ η κ)
  | .dispatch job => exchange.onExecutor mapper (.publish (job.toBytes mapper))
  | .send notification =>
    exchange.onDispatcher mapper (.publish notification.kind (notification.toBytes mapper))
  | .executor (.publish _) | .dispatcher (.publish _ _) => none
  | .executor action => exchange.onExecutor mapper action
  | .dispatcher action => exchange.onDispatcher mapper action

end Exchange

end RabbitJobQueue.Model
