import RabbitJobQueue.Model.JobQueue
import RabbitJobQueue.Model.TimedExecutor

/-! # A delivery callback in time

The callback of one delivery from its call of `future.get` on, with the times at which that call can
come back. Everything else in the queue goes on meanwhile; the statements behind the wait take no time.
Times are in nanoseconds and count from the submission of the job.
-/

namespace RabbitJobQueue.Model.TimedDelivery

open Machine JobQueue

/-- What the wait for a job that comes back after `duration` ends in, and when. On a tie either may
be seen first. -/
inductive FutureGet (jobTimeout duration : Duration) : Wait → ℕ → Prop
  | answered (inTime : duration.inWholeNanoseconds ≤ waitLimit jobTimeout) :
      FutureGet jobTimeout duration .answered duration.inWholeNanoseconds
  | expired (late : waitLimit jobTimeout ≤ duration.inWholeNanoseconds) :
      FutureGet jobTimeout duration .expired (waitLimit jobTimeout)

/-- What the future has answered when the wait ends. -/
def futureAt : Wait → FutureState
  | .answered => .normal
  | .expired | .interrupted => .pending

/-- The statements of the callback from `future.get` on: the acknowledgement; or `cancel`, the
acknowledgement and `timeoutFn`. -/
def statements {β η : Type} (ref : DeliveryRef) (wait : Wait) : List (JobQueueAction β η) :=
  match wait with
  | .answered => [.callback ref wait, .callback ref wait]
  | .expired => [.callback ref wait, .callback ref wait, .callback ref wait, .callback ref wait]
  | .interrupted => [.callback ref wait]

variable {ε β δ η : Type} [ExecutorFailureEnforcer ε]

/-- The callback, waiting in `queue`, is done in `final`: the others run on until the wait ends, with
the channel still open, and then the callback executes the statements that are left. -/
structure Ends (fromJson : β → Except Throwable δ) (jobTimeout duration : Duration)
    (queue : JobQueue ε β δ η) (ref : DeliveryRef) (channel : ExecutorRef) (wait : Wait) (time : ℕ)
    (final : JobQueue ε β δ η) : Prop where
  get : FutureGet jobTimeout duration wait time
  ran : ∃ others woken, run (step fromJson) queue others = some woken ∧
    (∀ any, .callback ref any ∉ others) ∧ woken.pool.isOpen channel = true ∧
    (∀ delivery, woken.deliveries[ref]? = some delivery →
      woken.answer delivery = some (futureAt wait)) ∧
    run (step fromJson) woken (statements ref wait) = some final

end RabbitJobQueue.Model.TimedDelivery
