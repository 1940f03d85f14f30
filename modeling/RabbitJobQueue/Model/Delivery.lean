import RabbitJobQueue.Model.Executor
import RabbitJobQueue.Model.FailureEnforcer
import RabbitJobQueue.Model.HandlerPool

/-! # Deliveries and the jobs they submit

The delivery callback `Executor.init` registers runs once for each delivery. A delivery's phase
says which statement of the callback comes next, or how the callback has ended. What the callback
submits to the thread pool is a job; it carries its own execution of the handlers.
-/

namespace RabbitJobQueue.Model

/-- A reference to a delivery: its index in the order in which the broker handed messages out. It
stands for the channel and the delivery tag together. -/
abbrev DeliveryRef := ℕ

/-- How a delivery callback returns. -/
inductive Exit
  | channelClosed
  | acknowledged
  | timedOut
deriving DecidableEq, Repr

/-- Where a delivery is: waiting in the client for its callback to be started (`received`), in front
of one of the statements of the callback, or behind it. `threw` is a callback whose exception the
client has still to handle, `failed` one whose channel it has closed for that. -/
inductive Phase (δ : Type)
  | received
  | accepted
  | decoded (dispatch : δ)
  | awaiting (dispatch : δ)
  | completed
  | timedOut (dispatch : δ)
  | cancelled (dispatch : δ)
  | ackTried (dispatch : δ)
  | returned (exit : Exit)
  | threw (exception : Throwable)
  | failed (exception : Throwable)
deriving DecidableEq, Repr

namespace Phase

variable {δ : Type}

/-- The client is done with the delivery. -/
def isOver : Phase δ → Bool
  | .returned _ | .failed _ => true
  | _ => false

/-- The client has started the callback and is not done with it. -/
def isActive : Phase δ → Bool
  | .received | .returned _ | .failed _ => false
  | _ => true

theorem received_or_active_or_over (phase : Phase δ) :
    phase = .received ∨ phase.isActive = true ∨ phase.isOver = true := by
  cases phase <;> simp [isActive, isOver]

end Phase

/-- A delivery and its history: the task its job became, how often `basicAck` has gone through for
it, whether `future.get` has timed out, whether `cancel` has been called, and the calls of
`timeoutFn` with their arguments. -/
structure Delivery (β δ : Type) where
  channel : ExecutorRef
  body : β
  phase : Phase δ := .received
  future : Option ℕ := none
  acks : ℕ := 0
  timedOut : Bool := false
  cancelRequested : Bool := false
  timeoutCalls : List δ := []
deriving DecidableEq, Repr

/-- The task `{ handlers.execute(dispatch) }`; `execution` is there once it has begun. -/
structure Job (δ η : Type) where
  delivery : DeliveryRef
  dispatch : δ
  execution : Option (Execution η) := none
deriving DecidableEq, Repr

namespace Job

variable {δ η : Type}

/-- A thread starts the job. -/
def begin (handlers : HandlerPool η) (job : Job δ η) : Job δ η :=
  { job with execution := some handlers.execute }

/-- `handlers.execute` has begun running. -/
def hasBegun (job : Job δ η) : Bool := job.execution.isSome

end Job

/-- What a wait in `future.get` comes to: the future has been answered, the time limit has passed,
or the waiting thread has been interrupted. -/
inductive Wait
  | answered
  | expired
  | interrupted
deriving DecidableEq, Repr

end RabbitJobQueue.Model
