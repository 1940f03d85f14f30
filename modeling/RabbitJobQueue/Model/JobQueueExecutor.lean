import RabbitJobQueue.Model.PoolThreads
import RabbitJobQueue.Model.QueueWrapper

/-! # The job queue executor and its connection

A `JobQueueExecutor` is a queue wrapper with an executor pool. The pool gets its channels from the same
connection over which the notifications are sent: every executor has one that `dispatchQueue` has created
for it, and every notification is published over one more. What closes a channel closes it for both sides.
-/

namespace RabbitJobQueue.Model

open Machine

namespace Connection

variable {β : Type} (connection : Connection β)

/-- Somebody closes a channel. -/
def closeChannel (channel : ChannelRef) (cause : CloseCause) : Connection β :=
  { connection with channels := connection.channels.modify channel (·.close cause) }

/-- `connection.abort`. -/
def abort : Connection β :=
  { connection with
    isOpen := false
    channels := connection.channels.map (·.close .connectionAbort) }

end Connection

/-- The executor; `channels` lists the channels of the pool's executors, in the order of their
construction. -/
structure JobQueueExecutor (ε π β : Type) where
  config : QueueConfig
  connection : Connection β
  executorPool : PoolThreads ε π
  channels : List ChannelRef := []

/-- `accepted` is the broker's answer to the `queueDeclare` of the call. -/
inductive ExecutorAction (E S : Type)
  | sendError (err : E) (accepted : Bool)
  | sendSuccess (msg : S) (accepted : Bool)
  | shutdown (blocking : Bool)
  /-- The broker, the network or the client's exception handler closes an open channel. -/
  | close (channel : ChannelRef) (cause : CloseCause)
  /-- The client starts the shutdown callback of a consumer whose channel has closed. -/
  | signal (ex : ExecutorRef)
  /-- A thread of the pool executes its next statement. -/
  | exec (activity : ℕ) (accepted : Bool) (basicConsume : Except Throwable Unit) (expired : Bool)

namespace JobQueueExecutor

variable {ε π β E S : Type}

/-- The wrapper is constructed, and the constructor calls `executorPool.start`. -/
def starting (config : QueueConfig) (channelMax : ℕ) (pool : JobQueueExecutorPool ε π) :
    JobQueueExecutor ε π β where
  config
  connection := { channelMax }
  executorPool := .starting pool

/-- A method of the wrapper works on the connection; whoever calls it catches what it throws. -/
def onConnection {α : Type} (executor : JobQueueExecutor ε π β) (method : Effect Throwable (Connection β) α) :
    Option (JobQueueExecutor ε π β) :=
  (method.exec executor.connection).map fun (_, connection) => { executor with connection }

variable [ExecutorFailureEnforcer ε]

/-- A statement of the pool. `createNew` calls the channel provider, `Executor.stop` closes the channel of
its executor, and the shutdown callback is `abort`. -/
def exec (executor : JobQueueExecutor ε π β) (activity : ℕ) (accepted : Bool)
    (basicConsume : Except Throwable Unit) (expired : Bool) : Option (JobQueueExecutor ε π β) :=
  match (executor.executorPool.activities[activity]?).bind (·.head?) with
  | some .createNew =>
    ((QueueWrapper.dispatchQueue executor.config accepted).exec executor.connection).bind
      fun (result, connection) =>
        (executor.executorPool.exec activity
          { channelProvider := result.map fun _ => (), basicConsume } expired).map fun executorPool =>
            { executor with
              connection, executorPool
              channels := executor.channels ++ result.toOption.toList }
  | instr =>
    (executor.executorPool.exec activity { basicConsume } expired).map fun executorPool =>
      { executor with
        executorPool
        connection := match instr with
          | some (.stop ex) => (executor.channels[ex]?).elim executor.connection fun channel =>
            executor.connection.closeChannel channel .executorStop
          | some .shutdownCB => executor.connection.abort
          | _ => executor.connection }

variable [JsonSerializable E β] [JsonSerializable S β]

def step (executor : JobQueueExecutor ε π β) : ExecutorAction E S → Option (JobQueueExecutor ε π β)
  | .sendError err accepted => executor.onConnection (QueueWrapper.sendError executor.config accepted err)
  | .sendSuccess msg accepted => executor.onConnection (QueueWrapper.sendSuccess executor.config accepted msg)
  | .shutdown blocking => (executor.executorPool.step (.callStop blocking true)).map fun executorPool =>
    { executor with executorPool }
  | .close channel cause =>
    if executor.connection.isOpenChannel channel && !cause.isOwnStop then
      some { executor with
        connection := executor.connection.closeChannel channel cause
        executorPool := { executor.executorPool with
          pool := (executor.channels.idxOf? channel).elim executor.executorPool.pool fun ex =>
            executor.executorPool.pool.closeChannel ex cause } }
    else none
  | .signal ex => (executor.executorPool.step (.signal ex)).map fun executorPool =>
    { executor with executorPool }
  | .exec activity accepted basicConsume expired => executor.exec activity accepted basicConsume expired

end JobQueueExecutor

end RabbitJobQueue.Model
