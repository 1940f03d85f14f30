import RabbitJobQueue.Machine.Refinement
import RabbitJobQueue.Model.Exchange
import RabbitJobQueue.Proofs.CarriedMessages
import RabbitJobQueue.Soundness.MessageAccounts
import RabbitJobQueue.Soundness.MessageRoundTrip
import RabbitJobQueue.Soundness.NotificationsDrain

/-! # Messages arrive as they were sent

Between a dispatcher and an executor a message goes through JSON text, a broker that may deliver it several
times, a callback, a thread pool and a loop over the handlers. Whatever the interleaving, what a handler or
`timeoutFn` is given is what somebody has sent, but for a null body, which has become a null node; nothing
sent by the library fails to be decoded; and nothing sent is lost or doubled.
-/

namespace RabbitJobQueue.Soundness.IntactMessages

open Machine Model MessageAccounts

variable {ε ι θ η κ : Type}

/-- Null becomes a null node. -/
def nodeOf (body : Option JsonNode) : Option JsonNode := some (body.getD .null)

/-- What a dispatch is on the other side. -/
def receivedJob (job : JobDispatch ι θ) : JobDispatch ι θ := { job with body := nodeOf job.body }

def received : Notification ι → Notification ι
  | .error err => .error { err with body := nodeOf err.body }
  | .success msg => .success msg

/-- A job whose body is in the form of the parser, within the limits of the mapper. -/
structure SendableJob [Textual ι] [Textual θ] (within : JsonNode → Prop) (job : JobDispatch ι θ) : Prop where
  parsed : ParsedBody job.body
  fits : within job.printed.node

def Sendable [Textual ι] (within : JsonNode → Prop) : Notification ι → Prop
  | .error err => ParsedBody err.body ∧ within err.toJson.node
  | .success msg => within msg.toJson.node

/-- The jobs dispatched, in their order. -/
def jobs (actions : List (ExchangeAction ι θ η κ)) : List (JobDispatch ι θ) :=
  actions.filterMap fun
    | .dispatch job => some job
    | _ => none

/-- The notifications sent. -/
def notifications (actions : List (ExchangeAction ι θ η κ)) : List (Notification ι) :=
  actions.filterMap fun
    | .send notification => some notification
    | _ => none

section Codec

variable [Textual ι] [LawfulTextual ι] [Textual θ] [LawfulTextual θ] {mapper : ObjectMapper}
  {within : JsonNode → Prop}

private theorem fromBytes_job (lawful : mapper.Lawful within) {job : JobDispatch ι θ}
    (sendable : SendableJob within job) :
    JobDispatch.fromBytes mapper (job.toBytes mapper) = .ok (receivedJob job) :=
  MessageRoundTrip.dispatch_published lawful job sendable.parsed sendable.fits

private theorem fromBytes_notification (lawful : mapper.Lawful within) {notification : Notification ι}
    (sendable : Sendable within notification) :
    Notification.fromBytes mapper notification.kind (notification.toBytes mapper) =
      .ok (received notification) := by
  cases notification with
  | error err =>
    have decoded := (MessageRoundTrip.notification_returned lawful err sendable.1 sendable.2).2
    exact congrArg (Notification.error <$> ·) decoded
  | success msg =>
    have decoded := (MessageRoundTrip.success_returns lawful msg sendable).2
    exact congrArg (Notification.success <$> ·) decoded

end Codec

section Sides

variable [Textual ι] [Textual θ] {mapper : ObjectMapper}

/-- The step of the executor's side in an action, if there is one. -/
def toExecutor (mapper : ObjectMapper) : ExchangeAction ι θ η κ → Option (JobQueueAction ByteArray η)
  | .dispatch job => some (.publish (job.toBytes mapper))
  | .executor action => some action
  | .send _ | .dispatcher _ => none

def toDispatcher (mapper : ObjectMapper) : ExchangeAction ι θ η κ → Option (DispatcherAction ByteArray κ)
  | .send notification => some (.publish notification.kind (notification.toBytes mapper))
  | .dispatcher action => some action
  | .dispatch _ | .executor _ => none

variable [ExecutorFailureEnforcer ε] {exchange next : Exchange ε ι θ η κ} {action : ExchangeAction ι θ η κ}

private theorem onExecutor_sides {side : JobQueueAction ByteArray η}
    (stepped : exchange.onExecutor mapper side = some next) :
    run (JobQueue.step (JobDispatch.fromBytes mapper)) exchange.executor [side] = some next.executor ∧
      next.dispatcher = exchange.dispatcher := by
  obtain ⟨executor, moved, rfl⟩ := Option.map_eq_some_iff.mp stepped
  exact ⟨run_singleton.trans moved, rfl⟩

omit [Textual θ] [ExecutorFailureEnforcer ε] in
private theorem onDispatcher_sides {side : DispatcherAction ByteArray κ}
    (stepped : exchange.onDispatcher mapper side = some next) :
    run (JobQueueDispatcher.step (Notification.fromBytes mapper)) exchange.dispatcher [side] =
        some next.dispatcher ∧ next.executor = exchange.executor := by
  obtain ⟨dispatcher, moved, rfl⟩ := Option.map_eq_some_iff.mp stepped
  exact ⟨run_singleton.trans moved, rfl⟩

/-- What a step of the exchange is to its two sides. -/
theorem step_sides (stepped : exchange.step mapper action = some next) :
    run (JobQueue.step (JobDispatch.fromBytes mapper)) exchange.executor (toExecutor mapper action).toList =
        some next.executor ∧
      run (JobQueueDispatcher.step (Notification.fromBytes mapper)) exchange.dispatcher
        (toDispatcher mapper action).toList = some next.dispatcher := by
  cases action with
  | dispatch job =>
    obtain ⟨moved, same⟩ := onExecutor_sides stepped
    exact ⟨moved, congrArg some same.symm⟩
  | send notification =>
    obtain ⟨moved, same⟩ := onDispatcher_sides stepped
    exact ⟨congrArg some same.symm, moved⟩
  | executor side =>
    have stepped : exchange.onExecutor mapper side = some next := by
      cases side <;> first | exact stepped | contradiction
    obtain ⟨moved, same⟩ := onExecutor_sides stepped
    exact ⟨moved, congrArg some same.symm⟩
  | dispatcher side =>
    have stepped : exchange.onDispatcher mapper side = some next := by
      cases side <;> first | exact stepped | contradiction
    obtain ⟨moved, same⟩ := onDispatcher_sides stepped
    exact ⟨congrArg some same.symm, moved⟩

/-- A message gets into a queue only by a method of the library. -/
theorem published_eq (stepped : exchange.step mapper action = some next) :
    (toExecutor mapper action).bind JobQueue.published =
        (match action with | .dispatch job => some (job.toBytes mapper) | _ => none) ∧
      ∀ kind, (toDispatcher mapper action).bind (JobQueueDispatcher.sent kind) =
        (match action with
          | .send notification => if notification.kind = kind then some (notification.toBytes mapper) else none
          | _ => none) := by
  cases action with
  | dispatch job => exact ⟨rfl, fun _ => rfl⟩
  | send notification => exact ⟨rfl, fun _ => rfl⟩
  | executor side => cases side <;> first | contradiction | exact ⟨rfl, fun _ => rfl⟩
  | dispatcher side => cases side <;> first | contradiction | exact ⟨rfl, fun _ => rfl⟩

variable {actions : List (ExchangeAction ι θ η κ)}

/-- The messages sent in a run, as either queue sees them. -/
theorem published_of_run (ran : run (Exchange.step mapper) exchange actions = some next) :
    AtLeastOnce.dispatched (actions.filterMap (toExecutor mapper)) =
        (jobs actions).map (·.toBytes mapper) ∧
      ∀ kind, NotificationsDrain.notifications kind (actions.filterMap (toDispatcher mapper)) =
        ((notifications actions).filter (·.kind = kind)).map (·.toBytes mapper) := by
  simp only [AtLeastOnce.dispatched, NotificationsDrain.notifications, List.filterMap_filterMap]
  induction actions generalizing exchange with
  | nil => exact ⟨rfl, fun _ => rfl⟩
  | cons action rest ih =>
    obtain ⟨middle, stepped, ran⟩ := run_cons_eq_some.mp ran
    obtain ⟨ofJobs, ofNotifications⟩ := ih ran
    obtain ⟨job, notification⟩ := published_eq stepped
    refine ⟨?_, fun kind => ?_⟩
    · rw [List.filterMap_cons, job, ofJobs]
      cases action <;> rfl
    · rw [List.filterMap_cons, notification kind, ofNotifications kind]
      cases action with
      | send other => by_cases same : other.kind = kind <;> simp [notifications, same]
      | _ => rfl

end Sides

section Intact

variable [Textual ι] [Textual θ]

/-- What the executor's side has made of the jobs that have been sent. -/
structure JobsIntact (mapper : ObjectMapper) (sent : List (JobDispatch ι θ))
    (queue : JobQueue ε ByteArray (JobDispatch ι θ) η) : Prop where
  accounts : (sent.map fun job => Except.ok (receivedJob job)).Perm
    ((queue.broker.ready ++ (queue.deliveries.filter (stands queue)).map (·.body)).map
      (JobDispatch.fromBytes mapper))
  deliveries : ∀ delivery ∈ queue.deliveries, ∃ job ∈ sent, delivery.body = job.toBytes mapper ∧
    (∀ dispatch, delivery.phase.dispatch = some dispatch ∨ dispatch ∈ delivery.timeoutCalls →
      dispatch = receivedJob job) ∧
    ∀ exception, delivery.phase.thrown = some exception → exception ∈ JobQueue.afterDecoding
  tasks : ∀ task ∈ queue.tasks, ∃ job ∈ sent, task.payload.dispatch = receivedJob job ∧
    ∃ delivery, queue.deliveries[task.payload.delivery]? = some delivery ∧ delivery.body = job.toBytes mapper

/-- What the dispatcher's side has made of the notifications that have been sent. -/
structure NotificationsIntact (mapper : ObjectMapper) (sent : List (Notification ι))
    (dispatcher : JobQueueDispatcher ByteArray (Notification ι) κ) : Prop where
  inventory : ∀ kind, ((sent.filter (·.kind = kind)).map fun notification =>
      Except.ok (received notification)).Perm
    ((dispatcher.queue kind).broker.inventory.map (Notification.fromBytes mapper kind))
  tasks : ∀ task ∈ dispatcher.tasks, ∃ notification ∈ sent, task.payload.kind = notification.kind ∧
    task.payload.body = notification.toBytes mapper ∧
    (∀ given execution, task.payload.stage = .executing given execution → given = received notification) ∧
    ∀ exception, task.payload.stage ≠ .acknowledging none exception

variable [LawfulTextual ι] [LawfulTextual θ] {mapper : ObjectMapper} {within : JsonNode → Prop}

/-- Mapping what was sent over the codec. -/
theorem decoded_perm {α β δ : Type} {sent : List α} {bodies : List β} {encode : α → β} {decode : β → δ}
    {receive : α → δ} (inverse : ∀ one ∈ sent, decode (encode one) = receive one)
    (books : (sent.map encode).Perm bodies) : (sent.map receive).Perm (bodies.map decode) := by
  have decoded := books.map decode
  rw [List.map_map] at decoded
  exact (List.map_congr_left inverse) ▸ decoded

private theorem jobsIntact [ExecutorFailureEnforcer ε] (lawful : mapper.Lawful within)
    {config : ExecutorPoolConfig ε}
    {clock : Clock} {pool : JobQueueExecutorPool ε (Job (JobDispatch ι θ) η)} {sent : List (JobDispatch ι θ)}
    {tape : List (JobQueueAction ByteArray η)} {queue : JobQueue ε ByteArray (JobDispatch ι θ) η}
    (constructed : JobQueueExecutorPool.new config clock = .ok pool)
    (sendable : ∀ job ∈ sent, SendableJob within job)
    (messages : AtLeastOnce.dispatched tape = sent.map (·.toBytes mapper))
    (ran : run (JobQueue.step (JobDispatch.fromBytes mapper)) (.starting pool []) tape = some queue) :
    JobsIntact mapper sent queue := by
  obtain ⟨accounted, custody, -⟩ := accounted_of_run constructed ran
  have idle : pool.threads.tasks = [] := by
    obtain ⟨-, -, rfl⟩ := JobQueueExecutorPool.new_eq_ok constructed
    rfl
  have carried : JobQueue.Carried (JobDispatch.fromBytes mapper) queue :=
    run_invariant (fun _ _ _ carried stepped => JobQueue.carried_step carried stepped)
      (JobQueue.carried_starting pool [] idle) ran
  have inventory : queue.broker.inventory.Perm (sent.map (·.toBytes mapper)) := by
    have inventory := AtLeastOnce.inventory_of_run ran
    rw [messages] at inventory
    exact inventory
  have inverse (job : JobDispatch ι θ) (member : job ∈ sent) :
      JobDispatch.fromBytes mapper (job.toBytes mapper) = .ok (receivedJob job) :=
    fromBytes_job lawful (sendable job member)
  have origin (delivery : Delivery ByteArray (JobDispatch ι θ)) (member : delivery ∈ queue.deliveries) :
      ∃ job ∈ sent, delivery.body = job.toBytes mapper ∧
        JobDispatch.fromBytes mapper delivery.body = .ok (receivedJob job) := by
    obtain ⟨job, known, same⟩ := List.mem_map.mp (inventory.mem_iff.mp (custody.known delivery member))
    exact ⟨job, known, same.symm, same ▸ inverse job known⟩
  refine ⟨decoded_perm inverse (inventory.symm.trans ((books_perm accounted custody).append_left _)),
    fun delivery member => ?_, fun task member => ?_⟩
  · obtain ⟨job, known, body, decoded⟩ := origin delivery member
    have faithful := carried.deliveries delivery member
    refine ⟨job, known, body, fun dispatch holds => ?_, fun exception thrown => ?_⟩
    · have same : JobDispatch.fromBytes mapper delivery.body = .ok dispatch :=
        holds.elim (faithful.phase dispatch) (faithful.timeoutCalls dispatch)
      exact Except.ok.inj (same.symm.trans decoded)
    · rcases faithful.thrown exception thrown with failed | later
      · rw [decoded] at failed
        contradiction
      · exact later
  · obtain ⟨delivery, read, same⟩ := carried.tasks _ (List.mem_map_of_mem member)
    obtain ⟨job, known, body, decoded⟩ := origin delivery (List.mem_of_getElem? read)
    exact ⟨job, known, Except.ok.inj (same.symm.trans decoded), delivery, read, body⟩

omit [Textual θ] [LawfulTextual θ] in
private theorem notificationsIntact (lawful : mapper.Lawful within) {workers : ℕ}
    {sent : List (Notification ι)} {tape : List (DispatcherAction ByteArray κ)}
    {dispatcher : JobQueueDispatcher ByteArray (Notification ι) κ}
    (sendable : ∀ notification ∈ sent, Sendable within notification)
    (messages : ∀ kind, NotificationsDrain.notifications kind tape =
      (sent.filter (·.kind = kind)).map (·.toBytes mapper))
    (ran : run (JobQueueDispatcher.step (Notification.fromBytes mapper)) (.starting workers fun _ => []) tape =
      some dispatcher) : NotificationsIntact mapper sent dispatcher := by
  have coherent : JobQueueDispatcher.Coherent dispatcher :=
    run_invariant (fun _ _ _ coherent stepped => JobQueueDispatcher.coherent_step coherent stepped)
      (JobQueueDispatcher.coherent_starting workers _) ran
  have carried : JobQueueDispatcher.Carried (Notification.fromBytes mapper) dispatcher :=
    run_invariant (fun _ _ _ carried stepped => JobQueueDispatcher.carried_step carried stepped)
      (JobQueueDispatcher.carried_starting workers _) ran
  have inventory (kind : NotificationKind) : (dispatcher.queue kind).broker.inventory.Perm
      ((sent.filter (·.kind = kind)).map (·.toBytes mapper)) := by
    have inventory := NotificationsDrain.inventory_of_run ran kind
    rw [messages kind] at inventory
    cases kind <;> exact inventory
  have inverse (kind : NotificationKind) (notification : Notification ι)
      (member : notification ∈ sent.filter (·.kind = kind)) :
      Notification.fromBytes mapper kind (notification.toBytes mapper) = .ok (received notification) := by
    obtain ⟨known, same⟩ := List.mem_filter.mp member
    rw [← of_decide_eq_true same]
    exact fromBytes_notification lawful (sendable notification known)
  refine ⟨fun kind => decoded_perm (inverse kind) (inventory kind).symm, fun task member => ?_⟩
  obtain ⟨place, read⟩ := List.mem_iff_getElem?.mp member
  obtain ⟨delivery, known, -, body, -⟩ := coherent.linked place task read
  have listed := carried.known _ delivery (List.mem_of_getElem? known)
  obtain ⟨notification, among, same⟩ := List.mem_map.mp ((inventory _).mem_iff.mp listed)
  have decoded := inverse _ notification among
  rw [same, body] at decoded
  obtain ⟨sentOne, sameKind⟩ := List.mem_filter.mp among
  have faithful := carried.tasks task member
  refine ⟨notification, sentOne, (of_decide_eq_true sameKind).symm, body.symm.trans same.symm, ?_, ?_⟩
  · intro given execution stage
    exact Except.ok.inj ((faithful.executing given execution stage).symm.trans decoded)
  · intro exception stage
    obtain ⟨thrown, failed⟩ := faithful.unhandled exception stage
    rw [decoded] at failed
    contradiction

/-- Whatever the interleaving of the two sides, both have made of the messages sent what the senders
meant. -/
theorem intact [ExecutorFailureEnforcer ε] (lawful : mapper.Lawful within) (config : ExecutorPoolConfig ε)
    (clock : Clock) (pool : JobQueueExecutorPool ε (Job (JobDispatch ι θ) η)) (workers : ℕ)
    (actions : List (ExchangeAction ι θ η κ)) (exchange : Exchange ε ι θ η κ)
    (constructed : JobQueueExecutorPool.new config clock = .ok pool)
    (sendableJobs : ∀ job ∈ jobs actions, SendableJob within job)
    (sendableNotifications : ∀ notification ∈ notifications actions, Sendable within notification)
    (ran : run (Exchange.step mapper) (.starting pool workers) actions = some exchange) :
    JobsIntact mapper (jobs actions) exchange.executor ∧
      NotificationsIntact mapper (notifications actions) exchange.dispatcher := by
  obtain ⟨ofJobs, ofNotifications⟩ := published_of_run ran
  have executor := run_filterMap Exchange.executor (toExecutor mapper)
    (fun _ _ _ stepped => (step_sides stepped).1) ran
  have dispatcher := run_filterMap Exchange.dispatcher (toDispatcher mapper)
    (fun _ _ _ stepped => (step_sides stepped).2) ran
  exact ⟨jobsIntact lawful constructed sendableJobs ofJobs executor,
    notificationsIntact lawful sendableNotifications ofNotifications dispatcher⟩

end Intact

/-- A pool for one worker. -/
def onePool : JobQueueExecutorPool MaxFailureEnforcer (Job (JobDispatch String String) ℕ) where
  poolSize := 1
  queueName := "jobs"
  failureChecker := maxTotalFailures 5
  clock := Stream'.const 0
  threads := { size := 1 }

def report : Notification String :=
  .error ⟨"0123456789ABCDEF0123456789ABCDEF", 5, 1, none, some (.array [.int 7])⟩

/-- A job is dispatched and an error notification sent, each with a body, before either side has started;
both are delivered, decoded and passed on. -/
def bothWays : List (ExchangeAction String String ℕ ℕ) :=
  [.dispatch MessageRoundTrip.query, .send report] ++
    List.replicate 3 (.executor (.pool (.exec 0 {} false))) ++ [.executor (.deliver 0 0)] ++
    List.replicate 3 (.executor (.callback 0 .answered)) ++ [.executor .takeTask] ++
    [.dispatcher .initCallbacks, .dispatcher .initCallbacks, .dispatcher (.deliver .error 0),
      .dispatcher (.callback .error 0), .dispatcher .takeTask, .dispatcher (.work 0)]

theorem intact_bothWays : ∃ exchange : Exchange MaxFailureEnforcer String String ℕ ℕ,
    run (Exchange.step JsonText.mapper) (.starting onePool 1) bothWays = some exchange ∧
    exchange.executor.tasks.length = 1 ∧ exchange.dispatcher.tasks.length = 1 ∧
    (∀ task ∈ exchange.executor.tasks, task.payload.dispatch = receivedJob MessageRoundTrip.query) ∧
    ∀ task ∈ exchange.dispatcher.tasks, task.payload.body = report.toBytes JsonText.mapper := by
  have reached : (run (Exchange.step JsonText.mapper) (.starting onePool 1) bothWays).any (fun exchange =>
      exchange.executor.tasks.length == 1 && exchange.dispatcher.tasks.length == 1) = true := by
    decide +kernel
  obtain ⟨exchange, ran, lengths⟩ := (Option.any_eq_true ..).mp reached
  simp only [Bool.and_eq_true, beq_iff_eq] at lengths
  obtain ⟨jobsIntact, notificationsIntact⟩ := intact JsonText.mapper_lawful ⟨"jobs", 1, maxTotalFailures 5⟩
    (Stream'.const 0) onePool 1 bothWays exchange rfl
    (List.forall_mem_singleton.mpr ⟨by rintro _ ⟨⟩; decide, trivial⟩)
    (List.forall_mem_singleton.mpr ⟨by rintro _ ⟨⟩; decide, trivial⟩) ran
  refine ⟨exchange, ran, lengths.1, lengths.2, fun task member => ?_, fun task member => ?_⟩
  · obtain ⟨job, sent, dispatch, -⟩ := jobsIntact.tasks task member
    rw [dispatch, List.mem_singleton.mp sent]
  · obtain ⟨notification, sent, -, body, -⟩ := notificationsIntact.tasks task member
    rw [body, List.mem_singleton.mp sent]

end RabbitJobQueue.Soundness.IntactMessages
