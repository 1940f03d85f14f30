import RabbitJobQueue.Machine.Registry
import RabbitJobQueue.Model.JobQueueExecutor

/-! # Dispatchers and executors that share a broker

Every wrapper declares a queue each time before it uses it, with the settings of its own configuration. Which
declarations the broker accepts, knowing the queues there are, is a parameter; it keeps a queue as it was
declared first, and closes the channel over which it refuses a declaration. The constructor of a dispatcher
subscribes to both notification queues, that of an executor creates its workers, each with a channel and a
consumer; where one of these calls throws there is no object to call. The consumers that exist then stay, and
a worker whose channel closes is replaced.
-/

namespace RabbitJobQueue.Model

open Machine

/-- `basicConsume`; what the consumer is given is not modelled here. -/
def Connection.basicConsume {β : Type} (channel : ChannelRef) : Effect Throwable (Connection β) Unit := do
  if (← get).isOpenChannel channel then pure () else throw .alreadyClosed

inductive WrapperKind
  | dispatcher
  | executor
deriving DecidableEq, Repr

/-- What a wrapper does on a channel of its own. `initErrorCallback` and `initSuccessCallback` are the two
halves of `initCallbacks`; `startWorker` is one turn of the loop of `start`, and `onConsumerShutdown` does
the same for a worker's replacement. -/
inductive WrapperCall (J E S : Type)
  | initErrorCallback
  | initSuccessCallback
  | dispatch (job : J)
  | startWorker
  | onConsumerShutdown
  | sendError (err : E)
  | sendSuccess (msg : S)
deriving DecidableEq, Repr

namespace WrapperCall

variable {J E S β : Type}

/-- Whose method it is. -/
def kind : WrapperCall J E S → WrapperKind
  | .initErrorCallback | .initSuccessCallback | .dispatch _ => .dispatcher
  | .startWorker | .onConsumerShutdown | .sendError _ | .sendSuccess _ => .executor

def duringConstruction : WrapperCall J E S → Bool
  | .initErrorCallback | .initSuccessCallback | .startWorker => true
  | _ => false

/-- How it declares the queue it works on. -/
def declaration (config : QueueConfig) : WrapperCall J E S → QueueDeclaration
  | .initErrorCallback | .sendError _ =>
    { queue := config.errorQueueName, durable := true, exclusive := false, autoDelete := false }
  | .initSuccessCallback | .sendSuccess _ =>
    { queue := config.successQueueName, durable := true, exclusive := false, autoDelete := false }
  | .dispatch _ | .startWorker | .onConsumerShutdown =>
    { queue := config.jobQueueName
      durable := true
      exclusive := false
      autoDelete := false
      consumerTimeout := some config.consumerTimeout }

variable [JsonSerializable J β] [JsonSerializable E β] [JsonSerializable S β]

def code (config : QueueConfig) (accepted : Bool) : WrapperCall J E S → Effect Throwable (Connection β) Unit
  | .initErrorCallback => QueueWrapper.withErrorQueue config accepted Connection.basicConsume
  | .initSuccessCallback => QueueWrapper.withSuccessQueue config accepted Connection.basicConsume
  | .dispatch job => QueueWrapper.dispatch config accepted job
  | .startWorker | .onConsumerShutdown =>
    QueueWrapper.withDispatchQueue config accepted Connection.basicConsume
  | .sendError err => QueueWrapper.sendError config accepted err
  | .sendSuccess msg => QueueWrapper.sendSuccess config accepted msg

end WrapperCall

/-- A wrapper and the calls its constructor has still to make; `failed` says that it has thrown. -/
structure Wrapper (J E S β : Type) where
  kind : WrapperKind
  config : QueueConfig
  connection : Connection β
  constructing : List (WrapperCall J E S) := []
  failed : Bool := false

namespace Wrapper

variable {J E S β : Type}

/-- The thread pools refuse other numbers of workers. -/
def acceptsWorkers : WrapperKind → ℕ → Bool
  | .dispatcher, workers => decide (1 ≤ workers)
  | .executor, workers => decide (1 ≤ workers ∧ workers ≤ 64)

def constructor (config : QueueConfig) : WrapperKind → List (WrapperCall J E S)
  | .dispatcher => [.initErrorCallback, .initSuccessCallback]
  | .executor => List.replicate config.workers .startWorker

/-- Its connection is opened before anything else is done. -/
def new (channelMax : ℕ) (kind : WrapperKind) (config : QueueConfig) : Wrapper J E S β where
  kind
  config
  connection := { channelMax }
  constructing := constructor config kind
  failed := !acceptsWorkers kind config.workers

/-- Whether somebody may call the method now: the client a consumer's callback, as soon as there has been
a consumer; its owner any other, once the wrapper is constructed. -/
def callable (wrapper : Wrapper J E S β) (method : WrapperCall J E S) : Bool :=
  match method with
  | .onConsumerShutdown => wrapper.kind = .executor && !wrapper.connection.declared.isEmpty
  | method => method.kind = wrapper.kind && !method.duringConstruction && wrapper.constructing.isEmpty &&
    !wrapper.failed

end Wrapper

/-- The broker's queues and the wrappers; `outcomes` is how each call of any of them ended. -/
structure Deployment (J E S β : Type) where
  channelMax : ℕ
  queues : Registry QueueDeclaration.queue := {}
  wrappers : List (Wrapper J E S β) := []
  outcomes : List (Except Throwable Unit) := []

inductive DeploymentAction (J E S : Type)
  /-- A process constructs a wrapper. -/
  | create (kind : WrapperKind) (config : QueueConfig)
  /-- A constructor goes on to its next call. -/
  | construct (wrapper : ℕ)
  | call (wrapper : ℕ) (method : WrapperCall J E S)
  /-- Somebody closes a channel. -/
  | close (wrapper : ℕ) (channel : ChannelRef) (cause : CloseCause)
  /-- A connection is lost or aborted. -/
  | abort (wrapper : ℕ)

namespace Deployment

variable {J E S β : Type}

/-- How a call ends whose declaration the broker refuses. -/
abbrev refusal : Except Throwable Unit := .error (.other "PRECONDITION_FAILED")

/-- Something happens to the connection of a wrapper. -/
def onConnection (deployment : Deployment J E S β) (index : ℕ) (change : Connection β → Connection β) :
    Option (Deployment J E S β) :=
  (deployment.wrappers[index]?).map fun wrapper =>
    { deployment with
      wrappers := deployment.wrappers.set index { wrapper with connection := change wrapper.connection } }

variable [JsonSerializable J β] [JsonSerializable E β] [JsonSerializable S β]
  (accepts : List QueueDeclaration → QueueDeclaration → Bool)

/-- The broker answers the declaration of the call, if one reaches it. -/
def perform (deployment : Deployment J E S β) (index : ℕ) (wrapper : Wrapper J E S β)
    (method : WrapperCall J E S) : Option (Deployment J E S β) :=
  let queues := deployment.queues.declare accepts (method.declaration wrapper.config)
  ((method.code wrapper.config queues.isSome).exec wrapper.connection).map fun (result, connection) =>
    { deployment with
      queues :=
        if connection.declared = wrapper.connection.declared then deployment.queues
        else queues.getD deployment.queues
      wrappers := deployment.wrappers.set index { wrapper with
        connection
        constructing :=
          if method.duringConstruction then wrapper.constructing.tail else wrapper.constructing
        failed := wrapper.failed || (method.duringConstruction && !result.isOk) }
      outcomes := deployment.outcomes ++ [result] }

def step (deployment : Deployment J E S β) : DeploymentAction J E S → Option (Deployment J E S β)
  | .create kind config => some { deployment with
    wrappers := deployment.wrappers ++ [.new deployment.channelMax kind config] }
  | .construct index => (deployment.wrappers[index]?).bind fun wrapper =>
    match wrapper.constructing with
    | method :: _ => if wrapper.failed then none else deployment.perform accepts index wrapper method
    | [] => none
  | .call index method => (deployment.wrappers[index]?).bind fun wrapper =>
    if wrapper.callable method then deployment.perform accepts index wrapper method else none
  | .close index channel cause => deployment.onConnection index (·.closeChannel channel cause)
  | .abort index => deployment.onConnection index (·.abort)

end Deployment

end RabbitJobQueue.Model
