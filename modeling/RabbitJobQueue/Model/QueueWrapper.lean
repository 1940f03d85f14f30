import RabbitJobQueue.Machine.Effect
import RabbitJobQueue.Model.Duration
import RabbitJobQueue.Model.Executor
import RabbitJobQueue.Model.FailureEnforcer

/-! # Queue wrappers and their connection

A dispatcher and an executor are queue wrappers: they own a connection, and whatever they do to one
of the three queues they do on a channel created for the purpose, after declaring the queue on it. The
client library creates a channel as long as fewer than `channelMax` are open, and returns null
otherwise; the broker closes the channel on which a queue is declared differently from how it exists.
-/

namespace RabbitJobQueue.Model

open Machine

/-- The settings a wrapper reads, with their defaults. -/
structure QueueConfig where
  jobQueueName : String := "jobs"
  errorQueueName : String := "errors"
  successQueueName : String := "successes"
  workers : ℕ := 5
  maxJobExecutionTime : Duration := .minutes 15
deriving DecidableEq, Repr

/-- The argument `x-consumer-timeout` of the job queue, in milliseconds. -/
def QueueConfig.consumerTimeout (config : QueueConfig) : ℕ :=
  (config.maxJobExecutionTime.times (3 / 2)).inWholeMilliseconds

/-- The arguments of `queueDeclare`; `consumerTimeout` is the argument `x-consumer-timeout`. -/
structure QueueDeclaration where
  queue : String
  durable : Bool
  exclusive : Bool
  autoDelete : Bool
  consumerTimeout : Option ℕ := none
deriving DecidableEq, Repr

/-- A reference to a channel: its index in the order of creation. -/
abbrev ChannelRef := ℕ

/-- A connection with every channel it ever created, the queues declared and the messages published
over it. -/
structure Connection (β : Type) where
  channelMax : ℕ
  isOpen : Bool := true
  channels : List Channel := []
  declared : List QueueDeclaration := []
  published : List (String × β) := []
deriving DecidableEq, Repr

/-- What can be published: `toJson().toString().toByteArray(UTF_8)`. -/
class JsonSerializable (μ : Type) (β : outParam Type) where
  toBytes : μ → β

namespace Connection

variable {β : Type}

/-- How many channels are open. -/
def openChannels (connection : Connection β) : ℕ := connection.channels.countP (·.isOpen)

def isOpenChannel (connection : Connection β) (channel : ChannelRef) : Bool :=
  (connection.channels[channel]?).any (·.isOpen)

/-- `none` is the null that stands for no channel being left. -/
def createChannel : Effect Throwable (Connection β) (Option ChannelRef) := do
  let connection ← get
  if !connection.isOpen then throw .alreadyClosed
  else if connection.openChannels < connection.channelMax then
    modify ({ · with channels := connection.channels ++ [{ closedBy := none }] })
    pure (some connection.channels.length)
  else pure none

/-- `accepted` is the broker's answer: whether the queue is new, or exists as it is declared here. -/
def queueDeclare (channel : ChannelRef) (declaration : QueueDeclaration) (accepted : Bool) :
    Effect Throwable (Connection β) Unit := do
  let connection ← get
  if !connection.isOpenChannel channel then throw .alreadyClosed
  else if accepted then modify ({ · with declared := connection.declared ++ [declaration] })
  else
    modify ({ · with channels := connection.channels.modify channel (·.close .broker) })
    throw (.other "PRECONDITION_FAILED")

/-- `basicPublish` over the default exchange, which routes by the name of the queue. -/
def basicPublish (channel : ChannelRef) (queue : String) (body : β) :
    Effect Throwable (Connection β) Unit := do
  let connection ← get
  if connection.isOpenChannel channel then
    modify ({ · with published := connection.published ++ [(queue, body)] })
  else throw .alreadyClosed

end Connection

namespace QueueWrapper

open Connection

variable {β μ : Type} [JsonSerializable μ β] (config : QueueConfig) (accepted : Bool)

def initErrorQueue (channel : ChannelRef) : Effect Throwable (Connection β) Unit :=
  queueDeclare channel
    { queue := config.errorQueueName, durable := true, exclusive := false, autoDelete := false } accepted

def initSuccessQueue (channel : ChannelRef) : Effect Throwable (Connection β) Unit :=
  queueDeclare channel
    { queue := config.successQueueName, durable := true, exclusive := false, autoDelete := false } accepted

def initDispatchQueue (channel : ChannelRef) : Effect Throwable (Connection β) Unit :=
  queueDeclare channel
    { queue := config.jobQueueName
      durable := true
      exclusive := false
      autoDelete := false
      consumerTimeout := some config.consumerTimeout } accepted

/-- `connection.createChannel().also { it.init() }`. -/
def queueChannel (init : ChannelRef → Effect Throwable (Connection β) Unit) :
    Effect Throwable (Connection β) ChannelRef := do
  match ← createChannel with
  | none => throw .nullPointer
  | some channel =>
    init channel
    pure channel

def dispatchQueue : Effect Throwable (Connection β) ChannelRef :=
  queueChannel (initDispatchQueue config accepted)

def errorQueue : Effect Throwable (Connection β) ChannelRef :=
  queueChannel (initErrorQueue config accepted)

def successQueue : Effect Throwable (Connection β) ChannelRef :=
  queueChannel (initSuccessQueue config accepted)

def withDispatchQueue (action : ChannelRef → Effect Throwable (Connection β) Unit) :
    Effect Throwable (Connection β) Unit :=
  dispatchQueue config accepted >>= action

def withErrorQueue (action : ChannelRef → Effect Throwable (Connection β) Unit) :
    Effect Throwable (Connection β) Unit :=
  errorQueue config accepted >>= action

def withSuccessQueue (action : ChannelRef → Effect Throwable (Connection β) Unit) :
    Effect Throwable (Connection β) Unit :=
  successQueue config accepted >>= action

def publish (queue : String) (body : μ) (channel : ChannelRef) : Effect Throwable (Connection β) Unit :=
  basicPublish channel queue (JsonSerializable.toBytes body)

/-- `JobQueueDispatcher.dispatch`. -/
def dispatch (job : μ) : Effect Throwable (Connection β) Unit :=
  withDispatchQueue config accepted (publish config.jobQueueName job)

/-- `JobQueueExecutor.sendError`. -/
def sendError (err : μ) : Effect Throwable (Connection β) Unit :=
  withErrorQueue config accepted (publish config.errorQueueName err)

/-- `JobQueueExecutor.sendSuccess`. -/
def sendSuccess (msg : μ) : Effect Throwable (Connection β) Unit :=
  withSuccessQueue config accepted (publish config.successQueueName msg)

end QueueWrapper

/-- A call of one of the publishing operations, with the broker's answer to its `queueDeclare`. -/
inductive PublishCall (J E S : Type)
  | dispatch (job : J) (accepted : Bool)
  | sendError (err : E) (accepted : Bool)
  | sendSuccess (msg : S) (accepted : Bool)
deriving DecidableEq, Repr

namespace PublishCall

variable {J E S β : Type} [JsonSerializable J β] [JsonSerializable E β] [JsonSerializable S β]

def accepted : PublishCall J E S → Bool
  | .dispatch _ accepted | .sendError _ accepted | .sendSuccess _ accepted => accepted

def code (config : QueueConfig) : PublishCall J E S → Effect Throwable (Connection β) Unit
  | .dispatch job accepted => QueueWrapper.dispatch config accepted job
  | .sendError err accepted => QueueWrapper.sendError config accepted err
  | .sendSuccess msg accepted => QueueWrapper.sendSuccess config accepted msg

/-- The caller catches what the call throws, if it does, and goes on. -/
def step (config : QueueConfig) (connection : Connection β) (call : PublishCall J E S) :
    Option (Connection β) :=
  ((call.code config).exec connection).map (·.2)

end PublishCall

end RabbitJobQueue.Model
