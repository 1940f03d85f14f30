import RabbitJobQueue.Proofs.WrapperCalls

/-! # The wrappers of a deployment agree about their queues

The broker keeps a queue as it was first declared, and nothing is sent to or consumed from a queue that has
not been declared on the way. So the declarations of one queue that have gone through agree in whatever the
broker compares. If that includes the consumer timeout, two wrappers never use one queue with different time
limits, and no queue ever holds both jobs and notifications.
-/

namespace RabbitJobQueue.Soundness.QueueAgreement

open Machine Model Model.Deployment

variable {J E S β γ : Type} {accepts : List QueueDeclaration → QueueDeclaration → Bool}
  {compared : QueueDeclaration → γ} {configs : List (WrapperKind × QueueConfig)}
  {queues : Registry QueueDeclaration.queue} {deployment next : Deployment J E S β} {index : ℕ}
  {wrapper : Wrapper J E S β} {method : WrapperCall J E S}

/-- How a wrapper declares its three queues. -/
def declarations (config : QueueConfig) : List QueueDeclaration :=
  [(WrapperCall.startWorker : WrapperCall Empty Empty Empty), .initErrorCallback, .initSuccessCallback].map
    (·.declaration config)

/-- A wrapper with one of the configurations declares a queue so. -/
def Declared (configs : List (WrapperKind × QueueConfig)) (declaration : QueueDeclaration) : Prop :=
  ∃ each ∈ configs, declaration ∈ declarations each.2

/-- The wrappers are constructed with configurations of the list. -/
def Configured (configs : List (WrapperKind × QueueConfig)) (actions : List (DeploymentAction J E S)) : Prop :=
  ∀ kind config, .create kind config ∈ actions → (kind, config) ∈ configs

/-- What the broker does when a queue is declared again: it refuses exactly what differs from the queue there
is in something it compares. -/
def Redeclares (accepts : List QueueDeclaration → QueueDeclaration → Bool) (compared : QueueDeclaration → γ)
    (configs : List (WrapperKind × QueueConfig)) : Prop :=
  Registry.Compares accepts QueueDeclaration.queue compared (Declared configs)

/-- The broker compares the consumer timeouts. -/
def ComparesTimeouts (compared : QueueDeclaration → γ) : Prop :=
  ∀ mine other, mine.queue = other.queue → compared mine = compared other →
    mine.consumerTimeout = other.consumerTimeout

theorem declaration_mem (method : WrapperCall J E S) (config : QueueConfig) :
    method.declaration config ∈ declarations config := by
  cases method <;> simp [declarations, WrapperCall.declaration]

/-- What the wrappers declare differs in nothing but the name and the timeout. -/
theorem declaration_ext {config settings : QueueConfig} {mine other : QueueDeclaration}
    (left : mine ∈ declarations config) (right : other ∈ declarations settings)
    (queue : mine.queue = other.queue) (timeout : mine.consumerTimeout = other.consumerTimeout) :
    mine = other := by
  simp only [declarations, List.map_cons, List.map_nil, List.mem_cons, List.not_mem_nil,
    or_false] at left right
  rcases left with rfl | rfl | rfl <;> rcases right with rfl | rfl | rfl <;>
    simp_all [WrapperCall.declaration]

/-- A wrapper has declared what it uses, and the broker knows of it. -/
structure Declares (compared : QueueDeclaration → γ) (configs : List (WrapperKind × QueueConfig))
    (queues : Registry QueueDeclaration.queue) (wrapper : Wrapper J E S β) : Prop where
  config : (wrapper.kind, wrapper.config) ∈ configs
  constructing : ∀ method ∈ wrapper.constructing, method.kind = wrapper.kind
  declared : ∀ declaration ∈ wrapper.connection.declared, queues.Holds compared declaration ∧
    declaration ∈ declarations wrapper.config
  published : ∀ message ∈ wrapper.connection.published, ∃ declaration, queues.Holds compared declaration ∧
    declaration.queue = message.1 ∧ (declaration.consumerTimeout = none ↔ wrapper.kind = .executor)

/-- Every queue is one that a configuration asks for. -/
structure Agreed (compared : QueueDeclaration → γ) (configs : List (WrapperKind × QueueConfig))
    (deployment : Deployment J E S β) : Prop where
  wrappers : ∀ wrapper ∈ deployment.wrappers, Declares compared configs deployment.queues wrapper
  origin : ∀ declaration ∈ deployment.queues.entries, Declared configs declaration

theorem Declares.declarable (declares : Declares compared configs queues wrapper)
    (method : WrapperCall J E S) : Declared configs (method.declaration wrapper.config) :=
  ⟨_, declares.config, declaration_mem method _⟩

private theorem Declares.mono {known : Registry QueueDeclaration.queue}
    (declares : Declares compared configs queues wrapper)
    (grown : ∀ declaration, queues.Holds compared declaration → known.Holds compared declaration) :
    Declares compared configs known wrapper where
  config := declares.config
  constructing := declares.constructing
  declared declaration member := (declares.declared declaration member).imp_left (grown _)
  published message member := by
    obtain ⟨declaration, known, same⟩ := declares.published message member
    exact ⟨declaration, grown _ known, same⟩

private theorem declares_new {kind : WrapperKind} {config : QueueConfig} {channelMax : ℕ}
    (configured : (kind, config) ∈ configs) :
    Declares compared configs queues (Wrapper.new channelMax kind config : Wrapper J E S β) where
  config := configured
  constructing method member := by
    cases kind with
    | dispatcher =>
      rcases List.mem_cons.mp member with rfl | member
      · rfl
      · rw [List.mem_singleton.mp member]
        rfl
    | executor =>
      rw [List.eq_of_mem_replicate member]
      rfl
  declared _ member := absurd member List.not_mem_nil
  published _ member := absurd member List.not_mem_nil

private theorem Declares.kind (declares : Declares compared configs queues wrapper)
    (calls : Calls wrapper method) : method.kind = wrapper.kind := by
  rcases calls with ⟨rest, constructing, -⟩ | callable
  · exact declares.constructing method (by simp [constructing])
  · exact (kind_of_callable callable).1

theorem agreed_starting (channelMax : ℕ) : Agreed compared configs ({ channelMax } : Deployment J E S β) :=
  ⟨by simp, by simp⟩

variable [JsonSerializable J β] [JsonSerializable E β] [JsonSerializable S β]

/-- What the broker has bound, it keeps; a call that is served has had its queue bound. -/
private theorem holds_performed {result : Except Throwable Unit} {after : Wrapper J E S β}
    (rule : Redeclares accepts compared configs) (agreed : Agreed compared configs deployment)
    (read : deployment.wrappers[index]? = some wrapper)
    (performed : Performed accepts deployment index wrapper method result after next) :
    (∀ declaration, deployment.queues.Holds compared declaration → next.queues.Holds compared declaration) ∧
      (result = .ok () → next.queues.Holds compared (method.declaration wrapper.config)) ∧
      ∀ declaration ∈ next.queues.entries,
        declaration ∈ deployment.queues.entries ∨ declaration = method.declaration wrapper.config := by
  by_cases served : result = .ok ()
  · have declared := performed.served served
    have declarable := (agreed.wrappers wrapper (List.mem_of_getElem? read)).declarable method
    exact ⟨fun _ => .declare declared, fun _ => Registry.holds_declared rule agreed.origin declarable declared,
      fun _ => Registry.mem_of_declare declared⟩
  · rw [performed.unserved served]
    exact ⟨fun _ => id, fun ok => absurd ok served, fun _ => .inl⟩

private theorem agreed_performed {result : Except Throwable Unit} {after : Wrapper J E S β}
    (rule : Redeclares accepts compared configs) (agreed : Agreed compared configs deployment)
    (read : deployment.wrappers[index]? = some wrapper) (calls : Calls wrapper method)
    (performed : Performed accepts deployment index wrapper method result after next) :
    Agreed compared configs next := by
  have before := agreed.wrappers wrapper (List.mem_of_getElem? read)
  have own := before.kind calls
  obtain ⟨kind, config⟩ := performed.same
  obtain ⟨grown, bound, origin⟩ := holds_performed rule agreed read performed
  constructor
  · intro other member
    rw [performed.wrappers] at member
    rcases List.mem_or_eq_of_mem_set member with old | rfl
    · exact (agreed.wrappers other old).mono grown
    · refine ⟨kind ▸ config ▸ before.config, ?_, ?_, ?_⟩
      · intro later left
        rw [performed.constructing] at left
        rw [kind]
        split at left
        · exact before.constructing later (List.mem_of_mem_tail left)
        · exact before.constructing later left
      · rw [config]
        rcases performed.called.cases_result with ⟨-, same, -⟩ | ⟨served, more, -⟩
        · rw [same]
          exact (before.mono grown).declared
        · intro declaration declared
          rw [more] at declared
          rcases List.mem_append.mp declared with old | new
          · exact (before.mono grown).declared declaration old
          · rw [List.mem_singleton.mp new]
            exact ⟨bound served, declaration_mem ..⟩
      · rw [kind]
        rcases performed.called.cases_result with ⟨-, -, same⟩ | ⟨served, -, more⟩
        · rw [same]
          exact (before.mono grown).published
        · intro message published
          rw [more] at published
          rcases List.mem_append.mp published with old | new
          · exact (before.mono grown).published message old
          · obtain ⟨queue, job, -⟩ := messages_declared new
            exact ⟨_, bound served, queue.symm, job.trans (by rw [own])⟩
  · intro declaration member
    rcases origin declaration member with old | rfl
    · exact agreed.origin declaration old
    · exact before.declarable method

theorem agreed_step {action : DeploymentAction J E S} (rule : Redeclares accepts compared configs)
    (agreed : Agreed compared configs deployment)
    (configured : ∀ kind config, action = .create kind config → (kind, config) ∈ configs)
    (stepped : deployment.step accepts action = some next) : Agreed compared configs next := by
  rcases step_cases stepped with ⟨kind, config, rfl, rfl⟩ | ⟨index, wrapper, method, read, calls, ran⟩ |
    ⟨index, wrapper, connection, read, declared, published, rfl⟩
  · refine ⟨?_, agreed.origin⟩
    intro other member
    rcases List.mem_append.mp member with old | new
    · exact agreed.wrappers other old
    · rw [List.mem_singleton.mp new]
      exact declares_new (configured kind config rfl)
  · obtain ⟨result, after, performed⟩ := performed_of_perform ran
    exact agreed_performed rule agreed read calls performed
  · have before := agreed.wrappers wrapper (List.mem_of_getElem? read)
    refine ⟨?_, agreed.origin⟩
    intro other member
    rcases List.mem_or_eq_of_mem_set member with old | rfl
    · exact agreed.wrappers other old
    · exact ⟨before.config, before.constructing, by dsimp only; rw [declared]; exact before.declared,
        by dsimp only; rw [published]; exact before.published⟩

/-- In a run of configured wrappers every queue is one that a configuration asks for. -/
theorem agreed_of_run (rule : Redeclares accepts compared configs) {channelMax : ℕ}
    {actions : List (DeploymentAction J E S)} {target : Deployment J E S β}
    (configured : Configured configs actions)
    (ran : run (step accepts) { channelMax } actions = some target) : Agreed compared configs target := by
  have along : Along (step accepts)
      (fun _ action => ∀ kind config, action = .create kind config → (kind, config) ∈ configs)
      ({ channelMax } : Deployment J E S β) actions := by
    apply Along.of_forall
    rintro _ member kind config rfl
    exact configured kind config member
  exact run_invariant_along (motive := Agreed compared configs)
    (fun _ _ _ agreed allowed => agreed_step rule agreed allowed) (agreed_starting channelMax) along ran

/-- Two wrappers that have declared one queue have declared it alike as far as the broker compares. If it
compares the timeouts, they have declared it alike altogether, and what a dispatcher sends never goes to a
queue to which an executor sends. -/
theorem agreement (accepts : List QueueDeclaration → QueueDeclaration → Bool) (compared : QueueDeclaration → γ)
    (configs : List (WrapperKind × QueueConfig)) (rule : Redeclares accepts compared configs) (channelMax : ℕ)
    (actions : List (DeploymentAction J E S)) (configured : Configured configs actions)
    {target : Deployment J E S β} (ran : run (step accepts) { channelMax } actions = some target)
    {first second : Wrapper J E S β} (left : first ∈ target.wrappers) (right : second ∈ target.wrappers) :
    (∀ mine ∈ first.connection.declared, ∀ other ∈ second.connection.declared,
      mine.queue = other.queue → compared mine = compared other) ∧
    (ComparesTimeouts compared →
      (∀ mine ∈ first.connection.declared, ∀ other ∈ second.connection.declared,
        mine.queue = other.queue → mine = other) ∧
      (first.kind = .dispatcher → second.kind = .executor →
        ∀ job ∈ first.connection.published, ∀ notification ∈ second.connection.published,
          job.1 ≠ notification.1)) := by
  have agreed := agreed_of_run rule configured ran
  have mine := agreed.wrappers first left
  have others := agreed.wrappers second right
  have alike : ∀ declaration ∈ first.connection.declared, ∀ other ∈ second.connection.declared,
      declaration.queue = other.queue → compared declaration = compared other := by
    intro declaration known other known' same
    exact (mine.declared declaration known).1.compared_eq (others.declared other known').1 same
  refine ⟨alike, fun compares => ⟨?_, ?_⟩⟩
  · intro declaration known other known' same
    have timeouts := compares declaration other same (alike declaration known other known' same)
    exact declaration_ext (mine.declared declaration known).2 (others.declared other known').2 same timeouts
  · intro dispatcher executor job sent notification sent' same
    obtain ⟨queue, known, name, limit⟩ := mine.published job sent
    obtain ⟨queue', known', name', limit'⟩ := others.published notification sent'
    have one : queue.queue = queue'.queue := by rw [name, name', same]
    rw [dispatcher, compares queue queue' one (known.compared_eq known' one), limit', executor] at limit
    exact absurd limit (by decide)

/-- Anything that is sent is its own encoding. -/
local instance : JsonSerializable String String := ⟨id⟩

/-- A dispatcher and an executor of two workers; a job is sent, and a notification to a queue that both have
declared. -/
def exchange : List (DeploymentAction String String String) :=
  [.create .dispatcher {}, .construct 0, .create .executor { workers := 2 }, .construct 1, .construct 0,
    .construct 1, .call 0 (.dispatch "job"), .call 1 (.sendError "err")]

/-- It compares the timeouts. -/
def comparesTimeouts : List QueueDeclaration → QueueDeclaration → Bool :=
  Registry.comparing QueueDeclaration.queue QueueDeclaration.consumerTimeout

theorem agreement_exchange : ∃ (target : Deployment String String String String)
    (first second : Wrapper String String String String),
    run (step comparesTimeouts) { channelMax := 3 } exchange = some target ∧
    target.wrappers = [first, second] ∧
    first.connection.published = [("jobs", "job")] ∧ second.connection.published = [("errors", "err")] ∧
    ((∀ mine ∈ first.connection.declared, ∀ other ∈ second.connection.declared,
      mine.queue = other.queue → mine.consumerTimeout = other.consumerTimeout) ∧
    (∀ mine ∈ first.connection.declared, ∀ other ∈ second.connection.declared,
      mine.queue = other.queue → mine = other) ∧
    (first.kind = .dispatcher → second.kind = .executor →
      ∀ job ∈ first.connection.published, ∀ notification ∈ second.connection.published,
        job.1 ≠ notification.1)) := by
  have sent : (run (step comparesTimeouts) { channelMax := 3 } exchange).map
      (fun target : Deployment String String String String => target.wrappers.map (·.connection.published)) =
      some [[("jobs", "job")], [("errors", "err")]] := by decide +kernel
  obtain ⟨target, ran, wrappers⟩ := Option.map_eq_some_iff.mp sent
  obtain ⟨first, rest, both, job, wrappers⟩ := List.map_eq_cons_iff.mp wrappers
  obtain ⟨second, rest, rfl, notification, none⟩ := List.map_eq_cons_iff.mp wrappers
  rw [List.map_eq_nil_iff.mp none] at both
  refine ⟨target, first, second, ran, both, job, notification, ?_⟩
  have left : first ∈ target.wrappers := by rw [both]; exact .head _
  have right : second ∈ target.wrappers := by rw [both]; exact .tail _ (.head _)
  have agrees := agreement comparesTimeouts QueueDeclaration.consumerTimeout
    [(.dispatcher, {}), (.executor, { workers := 2 })] Registry.compares_comparing 3 exchange
    (by simp [Configured, exchange]) ran left right
  exact ⟨agrees.1, agrees.2 fun _ _ _ => id⟩

end RabbitJobQueue.Soundness.QueueAgreement
