import RabbitJobQueue.Model.Deployment
import RabbitJobQueue.Proofs.ExecutorChannels

/-! # What a call of a wrapper comes to

A wrapper asks for a channel, declares a queue on it and then consumes from the queue or sends to it. So a
call finds no channel, is refused by the broker, or is served; and a step of a deployment creates a wrapper,
makes one such call, or only closes channels.
-/

namespace RabbitJobQueue.Model.Deployment

open Machine Connection QueueWrapper Soundness.PublishChannels
open JobQueueExecutor (queueChannel_accepted queueChannel_refused queueChannel_opening)

variable {J E S β : Type}

section Calls

variable {connection next : Connection β} {result : Except Throwable Unit}

/-- What a call comes to: it finds no channel, the broker refuses it, or it is served. -/
inductive Called (connection : Connection β) (declaration : QueueDeclaration) (messages : List (String × β)) :
    Bool → Except Throwable Unit → Connection β → Prop
  | failed {accepted : Bool} (exception : Throwable) (other : exception ≠ .other "PRECONDITION_FAILED")
      (shut : ¬ (connection.isOpen = true ∧ connection.openChannels < connection.channelMax)) :
      Called connection declaration messages accepted (.error exception) connection
  | refused : Called connection declaration messages false refusal
      { connection with channels := connection.channels ++ [{ closedBy := some .broker }] }
  | served : Called connection declaration messages true (.ok ()) { connection with
      channels := connection.channels ++ [{ closedBy := none }]
      declared := connection.declared ++ [declaration]
      published := connection.published ++ messages }

theorem Called.cases_result {declaration : QueueDeclaration} {messages : List (String × β)} {accepted : Bool}
    (called : Called connection declaration messages accepted result next) :
    (result ≠ .ok () ∧ next.declared = connection.declared ∧ next.published = connection.published) ∨
      (result = .ok () ∧ next.declared = connection.declared ++ [declaration] ∧
        next.published = connection.published ++ messages) := by
  cases called with
  | failed | refused => exact .inl ⟨by simp, rfl, rfl⟩
  | served => exact .inr ⟨rfl, rfl, rfl⟩

/-- Nobody but the broker refuses. -/
theorem Called.accepted_of_refusal {declaration : QueueDeclaration} {messages : List (String × β)}
    {accepted : Bool} (called : Called connection declaration messages accepted result next)
    (refused : result = refusal) : accepted = false := by
  cases called with
  | failed exception other => cases refused; exact absurd rfl other
  | refused => rfl
  | served => cases refused

/-- A call that finds a channel and is not refused takes the channel. -/
theorem Called.served_of_free {declaration : QueueDeclaration} {messages : List (String × β)}
    {accepted : Bool} (called : Called connection declaration messages accepted result next)
    (live : connection.isOpen = true) (free : connection.openChannels < connection.channelMax)
    (allowed : result ≠ refusal) : result = .ok () ∧ next.isOpen = true ∧
      next.channelMax = connection.channelMax ∧ next.openChannels = connection.openChannels + 1 := by
  cases called with
  | failed exception other shut => exact absurd ⟨live, free⟩ shut
  | refused => exact absurd rfl allowed
  | served => exact ⟨rfl, live, rfl, countP_alloc⟩

/-- On an open channel the action gets through and sends the messages. -/
def Serves (messages : List (String × β)) (action : ChannelRef → Effect Throwable (Connection β) Unit) : Prop :=
  ∀ (connection : Connection β) (channel : ChannelRef), connection.isOpenChannel channel = true →
    (action channel).exec connection =
      some (.ok (), { connection with published := connection.published ++ messages })

private theorem serves_consume : Serves (β := β) [] basicConsume := by
  intro connection channel opened
  rw [basicConsume, Effect.exec_get_bind, if_pos opened, List.append_nil]
  rfl

section Serving

variable {declaration : QueueDeclaration} {accepted : Bool} {messages : List (String × β)}
  {action : ChannelRef → Effect Throwable (Connection β) Unit}

private theorem called_of_serves (serves : Serves messages action)
    (ran : (queueChannel (queueDeclare · declaration accepted) >>= action).exec connection =
      some (result, next)) : Called connection declaration messages accepted result next := by
  rcases Effect.exec_bind_eq_some.mp ran with ⟨channel, middle, opened, acted⟩ | ⟨exception, failed, rfl⟩
  · cases queueChannel_opening opened with
    | opened live free =>
      rw [serves _ _ (isOpenChannel_new rfl)] at acted
      cases acted
      exact .served
  · generalize outcome : (Except.error exception : Except Throwable ChannelRef) = thrown at failed
    cases queueChannel_opening failed with
    | failed other different shut => cases outcome; exact .failed _ different shut
    | refused => cases outcome; exact .refused
    | opened => contradiction

/-- A call that finds a channel comes to an end. -/
theorem exec_of_serves (live : connection.isOpen = true) (free : connection.openChannels < connection.channelMax)
    (serves : Serves messages action) : ∃ result next,
      (queueChannel (queueDeclare · declaration accepted) >>= action).exec connection = some (result, next) := by
  cases accepted with
  | true =>
    have opened := queueChannel_accepted live free declaration
    exact ⟨_, _, (Effect.exec_bind_of_ok opened).trans (serves { connection with
      channels := connection.channels ++ [{ closedBy := none }]
      declared := connection.declared ++ [declaration] } connection.channels.length (isOpenChannel_new rfl))⟩
  | false => exact ⟨_, _, Effect.exec_bind_of_error (queueChannel_refused live free declaration)⟩

end Serving

variable [JsonSerializable J β] [JsonSerializable E β] [JsonSerializable S β] {config : QueueConfig}
  {accepted : Bool} {method : WrapperCall J E S}

/-- What the call sends when it is served. -/
def messages (config : QueueConfig) : WrapperCall J E S → List (String × β)
  | .dispatch job => [(config.jobQueueName, JsonSerializable.toBytes job)]
  | .sendError err => [(config.errorQueueName, JsonSerializable.toBytes err)]
  | .sendSuccess msg => [(config.successQueueName, JsonSerializable.toBytes msg)]
  | .initErrorCallback | .initSuccessCallback | .startWorker | .onConsumerShutdown => []

private theorem code_called (ran : (method.code config accepted).exec connection = some (result, next)) :
    Called connection (method.declaration config) (messages config method) accepted result next := by
  cases method with
  | initErrorCallback | initSuccessCallback | startWorker | onConsumerShutdown =>
    exact called_of_serves serves_consume ran
  | dispatch message | sendError message | sendSuccess message =>
    exact called_of_serves (fun _ _ opened => basicPublish_open opened ..) ran

theorem code_ends (live : connection.isOpen = true) (free : connection.openChannels < connection.channelMax)
    (config : QueueConfig) (accepted : Bool) (method : WrapperCall J E S) :
    ∃ result next, (method.code config accepted).exec connection = some (result, next) := by
  cases method with
  | initErrorCallback | initSuccessCallback | startWorker | onConsumerShutdown =>
    exact exec_of_serves live free serves_consume
  | dispatch message | sendError message | sendSuccess message =>
    exact exec_of_serves live free fun _ _ opened => basicPublish_open opened ..

/-- A message goes to the queue that was declared for it; jobs alone go to a queue with a time limit. -/
theorem messages_declared {message : String × β} (sent : message ∈ messages config method) :
    message.1 = (method.declaration config).queue ∧
      ((method.declaration config).consumerTimeout = none ↔ method.kind = .executor) ∧
      method.duringConstruction = false := by
  cases method <;> first
    | contradiction
    | rw [List.mem_singleton.mp sent]
      simp [WrapperCall.declaration, WrapperCall.kind, WrapperCall.duringConstruction]

end Calls

section Steps

variable [JsonSerializable J β] [JsonSerializable E β] [JsonSerializable S β]
  {accepts : List QueueDeclaration → QueueDeclaration → Bool} {deployment next : Deployment J E S β} {index : ℕ}
  {wrapper : Wrapper J E S β} {method : WrapperCall J E S}

/-- What a call of one wrapper changes. -/
structure Performed (accepts : List QueueDeclaration → QueueDeclaration → Bool)
    (deployment : Deployment J E S β) (index : ℕ) (wrapper : Wrapper J E S β) (method : WrapperCall J E S)
    (result : Except Throwable Unit) (after : Wrapper J E S β) (next : Deployment J E S β) : Prop where
  called : Called wrapper.connection (method.declaration wrapper.config) (messages wrapper.config method)
    (deployment.queues.declare accepts (method.declaration wrapper.config)).isSome result after.connection
  same : after.kind = wrapper.kind ∧ after.config = wrapper.config
  constructing : after.constructing =
    if method.duringConstruction then wrapper.constructing.tail else wrapper.constructing
  failed : after.failed = (wrapper.failed || (method.duringConstruction && !result.isOk))
  wrappers : next.wrappers = deployment.wrappers.set index after
  outcomes : next.outcomes = deployment.outcomes ++ [result]
  channelMax : next.channelMax = deployment.channelMax
  unserved : result ≠ .ok () → next.queues = deployment.queues
  served : result = .ok () →
    deployment.queues.declare accepts (method.declaration wrapper.config) = some next.queues

theorem performed_of_perform (ran : deployment.perform accepts index wrapper method = some next) :
    ∃ result after, Performed accepts deployment index wrapper method result after next := by
  rw [Deployment.perform] at ran
  obtain ⟨⟨result, connection⟩, returned, rfl⟩ := Option.map_eq_some_iff.mp ran
  have called := code_called returned
  refine ⟨result, { wrapper with
    connection
    constructing := if method.duringConstruction then wrapper.constructing.tail else wrapper.constructing
    failed := wrapper.failed || (method.duringConstruction && !result.isOk) }, called,
    ⟨rfl, rfl⟩, rfl, rfl, rfl, rfl, rfl, ?_, ?_⟩
  · intro unserved
    generalize (deployment.queues.declare accepts (method.declaration wrapper.config)).isSome =
      accepted at called
    cases called with
    | failed => exact if_pos rfl
    | refused => exact if_pos rfl
    | served => exact absurd rfl unserved
  · rintro rfl
    generalize declared : deployment.queues.declare accepts (method.declaration wrapper.config) = queues at *
    cases queues with
    | none => cases called
    | some queues =>
      cases called
      dsimp only
      rw [if_neg (by simp), Option.getD_some]

/-- Nobody but the broker refuses a call, and for what it knows of the queue. -/
theorem Performed.declare_eq_none {after : Wrapper J E S β}
    (performed : Performed accepts deployment index wrapper method refusal after next) :
    deployment.queues.declare accepts (method.declaration wrapper.config) = none := by
  have answer := performed.called.accepted_of_refusal rfl
  rwa [Option.isSome_eq_false_iff, Option.isNone_iff_eq_none] at answer

/-- Whether a wrapper makes the call next: its constructor does, or somebody may. -/
def Calls (wrapper : Wrapper J E S β) (method : WrapperCall J E S) : Prop :=
  (∃ rest, wrapper.constructing = method :: rest ∧ wrapper.failed = false) ∨ wrapper.callable method = true

omit [JsonSerializable J β] [JsonSerializable E β] [JsonSerializable S β] in
/-- What may be called from outside is no part of the constructor. -/
theorem kind_of_callable (callable : wrapper.callable method = true) :
    method.kind = wrapper.kind ∧ method.duringConstruction = false := by
  cases method with
  | onConsumerShutdown =>
    simp only [Wrapper.callable, Bool.and_eq_true, decide_eq_true_eq] at callable
    exact ⟨callable.1.symm, rfl⟩
  | _ =>
    simp only [Wrapper.callable, Bool.and_eq_true, decide_eq_true_eq, Bool.not_eq_true'] at callable
    exact callable.1.1

/-- Whoever is to make a call can make it. -/
theorem step_of_calls (read : deployment.wrappers[index]? = some wrapper) (calls : Calls wrapper method) :
    ∃ action, (∀ kind config, action ≠ .create kind config) ∧
      deployment.step accepts action = deployment.perform accepts index wrapper method := by
  rcases calls with ⟨rest, constructing, succeeded⟩ | callable
  · refine ⟨.construct index, by simp, ?_⟩
    rw [Deployment.step, read, Option.bind_some, constructing]
    exact if_neg (by simp [succeeded])
  · refine ⟨.call index method, by simp, ?_⟩
    rw [Deployment.step, read, Option.bind_some]
    exact if_pos callable

/-- A step creates a wrapper, makes a call of one, or only closes channels. -/
theorem step_cases {action : DeploymentAction J E S} (stepped : deployment.step accepts action = some next) :
    (∃ kind config, action = .create kind config ∧ next = { deployment with
      wrappers := deployment.wrappers ++ [.new deployment.channelMax kind config] }) ∨
    (∃ index wrapper method, deployment.wrappers[index]? = some wrapper ∧ Calls wrapper method ∧
      deployment.perform accepts index wrapper method = some next) ∨
    ∃ index wrapper connection, deployment.wrappers[index]? = some wrapper ∧
      connection.declared = wrapper.connection.declared ∧ connection.published = wrapper.connection.published ∧
      next = { deployment with wrappers := deployment.wrappers.set index { wrapper with connection } } := by
  cases action with
  | create kind config =>
    cases stepped
    exact .inl ⟨kind, config, rfl, rfl⟩
  | construct index =>
    obtain ⟨wrapper, read, stepped⟩ := Option.bind_eq_some_iff.mp stepped
    split at stepped
    · next method rest constructing =>
      split at stepped
      · contradiction
      · next succeeded =>
        have goes : wrapper.failed = false := eq_false_of_ne_true succeeded
        exact .inr (.inl ⟨index, wrapper, method, read, .inl ⟨rest, constructing, goes⟩, stepped⟩)
    · contradiction
  | call index method =>
    obtain ⟨wrapper, read, stepped⟩ := Option.bind_eq_some_iff.mp stepped
    split at stepped
    · next callable => exact .inr (.inl ⟨index, wrapper, method, read, .inr callable, stepped⟩)
    · contradiction
  | close index channel cause =>
    obtain ⟨wrapper, read, rfl⟩ := Option.map_eq_some_iff.mp stepped
    exact .inr (.inr ⟨index, wrapper, wrapper.connection.closeChannel channel cause, read, rfl, rfl, rfl⟩)
  | abort index =>
    obtain ⟨wrapper, read, rfl⟩ := Option.map_eq_some_iff.mp stepped
    exact .inr (.inr ⟨index, wrapper, wrapper.connection.abort, read, rfl, rfl, rfl⟩)

end Steps

end RabbitJobQueue.Model.Deployment
