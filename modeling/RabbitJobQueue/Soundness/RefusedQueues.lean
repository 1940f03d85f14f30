import RabbitJobQueue.Soundness.QueueAgreement

/-! # Which deployments are refused a queue

Nobody is ever refused exactly if any two configurations that name one queue declare it alike, as far as the
broker compares. If it compares the consumer timeouts, that takes configurations which give equal job queues
equal time limits and no job queue the name of a notification queue.
-/

namespace RabbitJobQueue.Soundness.RefusedQueues

open Machine Model Model.Connection Model.Deployment QueueAgreement

variable {J E S β γ : Type} {accepts : List QueueDeclaration → QueueDeclaration → Bool}
  {compared : QueueDeclaration → γ} {configs : List (WrapperKind × QueueConfig)}
  {deployment next : Deployment J E S β} {index : ℕ} {wrapper : Wrapper J E S β} {method : WrapperCall J E S}

/-- Any two declarations of one queue are the same to the broker. -/
def Compatible (compared : QueueDeclaration → γ) (configs : List (WrapperKind × QueueConfig)) : Prop :=
  ∀ first ∈ configs, ∀ second ∈ configs, ∀ mine ∈ declarations first.2, ∀ other ∈ declarations second.2,
    mine.queue = other.queue → compared mine = compared other

/-- Equal job queues have equal time limits, and no job queue has the name of a notification queue. -/
def Distinguishes (configs : List (WrapperKind × QueueConfig)) : Prop :=
  ∀ first ∈ configs, ∀ second ∈ configs,
    (first.2.jobQueueName = second.2.jobQueueName → first.2.consumerTimeout = second.2.consumerTimeout) ∧
    first.2.jobQueueName ≠ second.2.errorQueueName ∧ first.2.jobQueueName ≠ second.2.successQueueName

instance : Decidable (Distinguishes configs) := by unfold Distinguishes; infer_instance

/-- With so many channels a wrapper can be constructed and make one call more. -/
def Constructible (channelMax : ℕ) : WrapperKind → QueueConfig → Prop
  | .dispatcher, config => 1 ≤ config.workers ∧ 3 ≤ channelMax
  | .executor, config => 1 ≤ config.workers ∧ config.workers ≤ 64 ∧ config.workers + 1 ≤ channelMax

instance (channelMax : ℕ) : ∀ kind config, Decidable (Constructible channelMax kind config)
  | .dispatcher, config => inferInstanceAs (Decidable (1 ≤ config.workers ∧ 3 ≤ channelMax))
  | .executor, config =>
    inferInstanceAs (Decidable (1 ≤ config.workers ∧ config.workers ≤ 64 ∧ config.workers + 1 ≤ channelMax))

/-- If the broker compares the timeouts, that is all it can tell the declarations of the wrappers apart by. -/
theorem compatible_iff (compares : ComparesTimeouts compared) :
    Compatible compared configs ↔ Distinguishes configs := by
  have job (config : QueueConfig) := declaration_mem (.startWorker : WrapperCall Empty Empty Empty) config
  have error (config : QueueConfig) := declaration_mem (.initErrorCallback : WrapperCall Empty Empty Empty) config
  have success (config : QueueConfig) :=
    declaration_mem (.initSuccessCallback : WrapperCall Empty Empty Empty) config
  constructor
  · intro compatible first left second right
    have alike := compatible first left second right
    refine ⟨fun same => ?_, fun same => ?_, fun same => ?_⟩
    · exact Option.some.inj (compares _ _ same (alike _ (job _) _ (job _) same))
    · have impossible := compares _ _ same (alike _ (job _) _ (error _) same)
      contradiction
    · have impossible := compares _ _ same (alike _ (job _) _ (success _) same)
      contradiction
  · intro distinguishes first left second right mine member other member' same
    obtain ⟨limits, noError, noSuccess⟩ := distinguishes first left second right
    obtain ⟨-, noError', noSuccess'⟩ := distinguishes second right first left
    simp only [declarations, List.map_cons, List.map_nil, List.mem_cons, List.not_mem_nil,
      or_false] at member member'
    apply congrArg compared
    rcases member with rfl | rfl | rfl <;> rcases member' with rfl | rfl | rfl <;>
      dsimp only [WrapperCall.declaration] at same ⊢ <;> first
      | exact absurd same noError
      | exact absurd same noSuccess
      | exact absurd same.symm noError'
      | exact absurd same.symm noSuccess'
      | rw [same, limits same]
      | rw [same]

variable [JsonSerializable J β] [JsonSerializable E β] [JsonSerializable S β]

private theorem never_refused_of_compatible (rule : Redeclares accepts compared configs)
    (compatible : Compatible compared configs) {channelMax : ℕ} {actions : List (DeploymentAction J E S)}
    {target : Deployment J E S β} (configured : Configured configs actions)
    (ran : run (step accepts) { channelMax } actions = some target) : refusal ∉ target.outcomes := by
  induction actions using List.reverseRecOn generalizing target with
  | nil =>
    cases ran
    exact List.not_mem_nil
  | append_singleton earlier action ih =>
    obtain ⟨middle, before, stepped⟩ := run_append_eq_some.mp ran
    have known : Configured configs earlier := fun kind config member =>
      configured kind config (List.mem_append_left _ member)
    have never : refusal ∉ middle.outcomes := ih known before
    have agreed := agreed_of_run rule known before
    rcases step_cases (run_singleton.symm.trans stepped) with ⟨kind, config, -, rfl⟩ |
      ⟨index, wrapper, method, read, calls, ran⟩ | ⟨index, wrapper, connection, -, -, -, rfl⟩
    · exact never
    · obtain ⟨result, later, performed⟩ := performed_of_perform ran
      have mine := agreed.wrappers wrapper (List.mem_of_getElem? read)
      rw [performed.outcomes, List.mem_append, List.mem_singleton]
      rintro (old | rfl)
      · exact never old
      · obtain ⟨bound, member, same, differs⟩ :=
          (Registry.declare_eq_none rule agreed.origin (mine.declarable method)).mp performed.declare_eq_none
        obtain ⟨each, allowed, declared⟩ := agreed.origin bound member
        exact differs (compatible _ allowed _ mine.config _ declared _ (declaration_mem ..) same)
    · exact never

/-- Whatever is done from here, nobody is refused. -/
def NeverRefused (accepts : List QueueDeclaration → QueueDeclaration → Bool)
    (configs : List (WrapperKind × QueueConfig)) (deployment : Deployment J E S β) : Prop :=
  ∀ actions target, Configured configs actions → run (step accepts) deployment actions = some target →
    refusal ∉ target.outcomes

/-- A wrapper that can make so many calls more. -/
structure Ready (deployment : Deployment J E S β) (index : ℕ) (wrapper : Wrapper J E S β) (calls : ℕ) : Prop where
  read : deployment.wrappers[index]? = some wrapper
  live : wrapper.connection.isOpen = true
  free : wrapper.connection.openChannels + calls ≤ wrapper.connection.channelMax
  succeeded : wrapper.failed = false

private theorem NeverRefused.after {action : DeploymentAction J E S}
    (never : NeverRefused accepts configs deployment) (configured : Configured configs [action])
    (stepped : deployment.step accepts action = some next) : NeverRefused accepts configs next := by
  intro actions target later ran
  refine never (action :: actions) target ?_ (run_cons_eq_some.mpr ⟨next, stepped, ran⟩)
  intro kind config member
  rcases List.mem_cons.mp member with here | there
  · exact configured kind config (by simp [here])
  · exact later kind config there

/-- A run among configured wrappers, after which nobody will be refused either and every queue is still
bound as it was. -/
structure Leads (accepts : List QueueDeclaration → QueueDeclaration → Bool) (compared : QueueDeclaration → γ)
    (configs : List (WrapperKind × QueueConfig)) (deployment target : Deployment J E S β) : Prop where
  never : NeverRefused accepts configs target
  agreed : Agreed compared configs target
  kept : ∀ declaration, deployment.queues.Holds compared declaration → target.queues.Holds compared declaration
  channelMax : target.channelMax = deployment.channelMax

private theorem Leads.trans {target : Deployment J E S β} (first : Leads accepts compared configs deployment next)
    (second : Leads accepts compared configs next target) : Leads accepts compared configs deployment target where
  never := second.never
  agreed := second.agreed
  kept _ known := second.kept _ (first.kept _ known)
  channelMax := second.channelMax.trans first.channelMax

/-- Where nobody is refused, a call that finds a channel is served. -/
private theorem served_of_never {calls : ℕ} (rule : Redeclares accepts compared configs)
    (never : NeverRefused accepts configs deployment) (agreed : Agreed compared configs deployment)
    (ready : Ready deployment index wrapper (calls + 1)) (due : Calls wrapper method) :
    ∃ target after, Leads accepts compared configs deployment target ∧
      target.queues.Holds compared (method.declaration wrapper.config) ∧ Ready target index after calls ∧
      after.kind = wrapper.kind ∧ after.config = wrapper.config ∧
      after.constructing =
        if method.duringConstruction then wrapper.constructing.tail else wrapper.constructing := by
  have roomy := ready.free
  have free : wrapper.connection.openChannels < wrapper.connection.channelMax := by omega
  obtain ⟨action, other, same⟩ : ∃ action, (∀ kind config, action ≠ .create kind config) ∧
      deployment.step accepts action = deployment.perform accepts index wrapper method :=
    step_of_calls ready.read due
  obtain ⟨result, connection, ended⟩ := code_ends ready.live free wrapper.config
    (deployment.queues.declare accepts (method.declaration wrapper.config)).isSome method
  obtain ⟨target, performed⟩ : ∃ target, deployment.perform accepts index wrapper method = some target :=
    ⟨_, congrArg (Option.map _) ended⟩
  have configured : Configured configs [action] := by
    intro kind config member
    exact absurd (List.mem_singleton.mp member).symm (other kind config)
  have stepped := same.trans performed
  obtain ⟨result, after, performed⟩ := performed_of_perform performed
  have allowed : result ≠ refusal := by
    rintro refused
    apply never [action] target configured (run_singleton.trans stepped)
    rw [performed.outcomes, refused]
    simp
  obtain ⟨served, live, sameMax, count⟩ := performed.called.served_of_free ready.live free allowed
  obtain ⟨kind, config⟩ := performed.same
  obtain ⟨inside, -⟩ := List.getElem?_eq_some_iff.mp ready.read
  have declared := performed.served served
  have declarable := (agreed.wrappers wrapper (List.mem_of_getElem? ready.read)).declarable method
  have still := agreed_step rule agreed (fun kind config same => absurd same (other kind config)) stepped
  refine ⟨target, after, ⟨never.after configured stepped, still, fun _ known => known.declare declared,
    performed.channelMax⟩, Registry.holds_declared rule agreed.origin declarable declared,
    ⟨?_, live, by omega, ?_⟩, kind, config, performed.constructing⟩
  · rw [performed.wrappers, List.getElem?_set_self inside]
  · rw [performed.failed, ready.succeeded, served]
    cases method.duringConstruction <;> rfl

/-- The constructor runs to its end. -/
private theorem constructed_of_never {calls : ℕ} (rule : Redeclares accepts compared configs)
    (never : NeverRefused accepts configs deployment) (agreed : Agreed compared configs deployment)
    (ready : Ready deployment index wrapper (wrapper.constructing.length + calls))
    (own : ∀ method ∈ wrapper.constructing, method.duringConstruction = true) :
    ∃ target after, Leads accepts compared configs deployment target ∧ Ready target index after calls ∧
      after.kind = wrapper.kind ∧ after.config = wrapper.config ∧ after.constructing = [] ∧
      ∀ method ∈ wrapper.constructing, target.queues.Holds compared (method.declaration wrapper.config) := by
  induction pending : wrapper.constructing generalizing deployment wrapper with
  | nil =>
    rw [pending, List.length_nil, Nat.zero_add] at ready
    exact ⟨deployment, wrapper, ⟨never, agreed, fun _ old => old, rfl⟩, ready, rfl, rfl, pending, by simp⟩
  | cons method rest ih =>
    rw [pending] at own
    rw [pending, List.length_cons, Nat.add_right_comm] at ready
    obtain ⟨middle, later, leads, declared, ready, kind, config, constructing⟩ :=
      served_of_never rule never agreed ready (.inl ⟨rest, pending, ready.succeeded⟩)
    rw [if_pos (own method List.mem_cons_self), pending, List.tail_cons] at constructing
    obtain ⟨target, after, onward, ready, sameKind, sameConfig, done, all⟩ := ih leads.never leads.agreed
      (by rw [constructing]; exact ready)
      (by rw [constructing]; exact fun other left => own other (List.mem_cons_of_mem _ left)) constructing
    refine ⟨target, after, leads.trans onward, ready, sameKind.trans kind, sameConfig.trans config, done, ?_⟩
    intro other member
    rcases List.mem_cons.mp member with rfl | left
    · exact onward.kept _ declared
    · rw [← config]
      exact all other left

omit [JsonSerializable J β] [JsonSerializable E β] [JsonSerializable S β] in
/-- A new wrapper has as many channels as its constructor takes, and one more. -/
private theorem ready_new {kind : WrapperKind} {config : QueueConfig}
    (constructible : Constructible deployment.channelMax kind config) :
    Ready { deployment with wrappers := deployment.wrappers ++ [.new deployment.channelMax kind config] }
      deployment.wrappers.length (.new deployment.channelMax kind config)
      ((Wrapper.constructor config kind : List (WrapperCall J E S)).length + 1) := by
  refine ⟨List.getElem?_concat_length .., rfl, ?_, ?_⟩
  · change 0 + ((Wrapper.constructor config kind).length + 1) ≤ deployment.channelMax
    cases kind with
    | dispatcher =>
      have enough := constructible.2
      simpa [Wrapper.constructor] using enough
    | executor =>
      have enough := constructible.2.2
      simpa [Wrapper.constructor] using enough
  · cases kind with
    | dispatcher => simpa [Wrapper.new, Wrapper.acceptsWorkers] using constructible.1
    | executor => simpa [Wrapper.new, Wrapper.acceptsWorkers] using ⟨constructible.1, constructible.2.1⟩

omit [JsonSerializable J β] [JsonSerializable E β] [JsonSerializable S β] in
/-- A constructor with workers to start makes the calls of its kind that belong to it, and no others. -/
private theorem mem_constructor_iff {kind : WrapperKind} {config : QueueConfig} (some : 1 ≤ config.workers) :
    method ∈ Wrapper.constructor config kind ↔ method.kind = kind ∧ method.duringConstruction = true := by
  cases kind with
  | dispatcher =>
    cases method <;> simp [Wrapper.constructor, WrapperCall.kind, WrapperCall.duringConstruction]
  | executor =>
    have nonzero : config.workers ≠ 0 := Nat.one_le_iff_ne_zero.mp some
    cases method <;>
      simp [Wrapper.constructor, WrapperCall.kind, WrapperCall.duringConstruction, List.mem_replicate, nonzero]

/-- Whatever a configured wrapper has a method to declare gets declared. -/
private theorem declared_of_never {kind : WrapperKind} {config : QueueConfig}
    (rule : Redeclares accepts compared configs) (never : NeverRefused accepts configs deployment)
    (agreed : Agreed compared configs deployment) (member : (kind, config) ∈ configs)
    (constructible : Constructible deployment.channelMax kind config) (own : method.kind = kind)
    (other : method ≠ .onConsumerShutdown) :
    ∃ target, Leads accepts compared configs deployment target ∧
      target.queues.Holds compared (method.declaration config) := by
  let wrapper : Wrapper J E S β := .new deployment.channelMax kind config
  have created : deployment.step accepts (.create kind config) =
      some { deployment with wrappers := deployment.wrappers ++ [wrapper] } := rfl
  have configured : Configured configs [(.create kind config : DeploymentAction J E S)] := by
    intro other settings here
    cases List.mem_singleton.mp here
    exact member
  have started : Leads accepts compared configs deployment
      { deployment with wrappers := deployment.wrappers ++ [wrapper] } :=
    ⟨never.after configured created, agreed_step rule agreed (by rintro _ _ ⟨⟩; exact member) created,
      fun _ old => old, rfl⟩
  have workers : 1 ≤ config.workers := by
    cases kind with
    | dispatcher => exact constructible.1
    | executor => exact constructible.1
  obtain ⟨middle, after, leads, ready, sameKind, sameConfig, done, all⟩ :=
    constructed_of_never rule started.never started.agreed (ready_new constructible)
      fun _ called => ((mem_constructor_iff workers).mp called).2
  cases during : method.duringConstruction with
  | true => exact ⟨middle, started.trans leads, all method ((mem_constructor_iff workers).mpr ⟨own, during⟩)⟩
  | false =>
    have due : after.callable method = true := by
      have same : method.kind = after.kind := own.trans sameKind.symm
      cases method with
      | onConsumerShutdown => exact absurd rfl other
      | _ => simp_all [Wrapper.callable, ready.succeeded]
    obtain ⟨target, _, onward, declared, -⟩ :=
      served_of_never rule leads.never leads.agreed ready (.inr due)
    rw [sameConfig] at declared
    exact ⟨target, (started.trans leads).trans onward, declared⟩

/-- Wrappers of either kind declare all three queues. -/
private theorem exists_declares (job : J) (err : E) (msg : S) (kind : WrapperKind) {config : QueueConfig}
    {declaration : QueueDeclaration} (member : declaration ∈ declarations config) :
    ∃ method : WrapperCall J E S, method.kind = kind ∧ method ≠ .onConsumerShutdown ∧
      method.declaration config = declaration := by
  simp only [declarations, List.map_cons, List.map_nil, List.mem_cons, List.not_mem_nil, or_false] at member
  cases kind with
  | dispatcher =>
    rcases member with rfl | rfl | rfl
    · exact ⟨.dispatch job, rfl, by simp, rfl⟩
    · exact ⟨.initErrorCallback, rfl, by simp, rfl⟩
    · exact ⟨.initSuccessCallback, rfl, by simp, rfl⟩
  | executor =>
    rcases member with rfl | rfl | rfl
    · exact ⟨.startWorker, rfl, by simp, rfl⟩
    · exact ⟨.sendError err, rfl, by simp, rfl⟩
    · exact ⟨.sendSuccess msg, rfl, by simp, rfl⟩

/-- In no run of wrappers with these configurations is any of them ever refused a queue, if and only if the
configurations are compatible; and if the broker compares the timeouts, if and only if they distinguish the
job queues from one another and from the notification queues. -/
theorem never_refused_iff (accepts : List QueueDeclaration → QueueDeclaration → Bool)
    (compared : QueueDeclaration → γ) (configs : List (WrapperKind × QueueConfig))
    (rule : Redeclares accepts compared configs) (channelMax : ℕ)
    (constructible : ∀ each ∈ configs, Constructible channelMax each.1 each.2) (job : J) (err : E) (msg : S) :
    ((∀ (actions : List (DeploymentAction J E S)) (target : Deployment J E S β),
      Configured configs actions → run (step accepts) { channelMax } actions = some target →
      refusal ∉ target.outcomes) ↔ Compatible compared configs) ∧
    (ComparesTimeouts compared → (Compatible compared configs ↔ Distinguishes configs)) := by
  refine ⟨⟨?_, ?_⟩, compatible_iff⟩
  · intro never first left second right mine member other member' same
    obtain ⟨method, own, called, rfl⟩ := exists_declares job err msg first.1 member
    obtain ⟨method', own', called', rfl⟩ := exists_declares job err msg second.1 member'
    have fresh : NeverRefused accepts configs ({ channelMax } : Deployment J E S β) := never
    obtain ⟨middle, leads, known⟩ := declared_of_never rule fresh
      (agreed_starting channelMax) left (constructible first left) own called
    obtain ⟨target, onward, known'⟩ := declared_of_never rule leads.never leads.agreed right
      (leads.channelMax ▸ constructible second right) own' called'
    exact (onward.kept _ known).compared_eq known' same
  · intro compatible actions target configured ran
    exact never_refused_of_compatible rule compatible configured ran

/-- Anything that is sent is its own encoding. -/
local instance : JsonSerializable String String := ⟨id⟩

/-- A dispatcher, and an executor whose jobs may take longer. -/
def longer : List (WrapperKind × QueueConfig) :=
  [(.dispatcher, {}), (.executor, { maxJobExecutionTime := .minutes 20 })]

/-- The second of them to use the job queue may be refused. -/
theorem never_refused_iff_longer : ¬ ∀ (actions : List (DeploymentAction String String String))
    (target : Deployment String String String String), Configured longer actions →
      run (step comparesTimeouts) { channelMax := 6 } actions = some target → refusal ∉ target.outcomes := by
  have exactly := never_refused_iff (J := String) (E := String) (S := String) (β := String)
    comparesTimeouts QueueDeclaration.consumerTimeout longer Registry.compares_comparing 6 (by decide)
    "job" "err" "msg"
  rw [exactly.1, exactly.2 fun _ _ _ => id]
  decide +kernel

end RabbitJobQueue.Soundness.RefusedQueues
