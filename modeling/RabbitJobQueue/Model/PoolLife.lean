import RabbitJobQueue.Machine.Run
import RabbitJobQueue.Model.ExecutorPool

/-! # The life of a pool, one shutdown callback at a time

After `start`, consumers die and the client runs the shutdown callback of each of them, once and
to its end, before the next one dies. An exception leaving the callback goes to the client, which
has nothing left to close.
-/

namespace RabbitJobQueue.Model

open Machine

/-- The consumer of `ref` dies; the client answers what its replacement asks for. -/
structure ConsumerDeath where
  ref : ExecutorRef
  cause : CloseCause
  answers : ClientAnswers := {}

namespace JobQueueExecutorPool

variable {ε π : Type} [ExecutorFailureEnforcer ε]

/-- One consumer death with its whole callback. Only a live consumer dies, and not by the pool's
own hand. -/
def death (pool : JobQueueExecutorPool ε π) (event : ConsumerDeath) :
    Option (JobQueueExecutorPool ε π) :=
  if pool.isLive event.ref && !event.cause.isOwnStop then
    ((onConsumerShutdown event.ref event.cause.isInitiatedByApplication event.answers).exec
      (pool.kill event.ref event.cause)).map (·.2)
  else none

end JobQueueExecutorPool

end RabbitJobQueue.Model
