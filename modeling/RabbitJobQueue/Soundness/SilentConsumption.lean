import RabbitJobQueue.Soundness.SilentJobs
import RabbitJobQueue.Soundness.SilentNotifications
import RabbitJobQueue.Soundness.UnstartedJobs

/-! # Whether a message can be consumed silently

Both constructors subscribe before a handler can be registered, and an empty list of handlers is
iterated over without complaint. What is consumed in the meantime is acknowledged and gone. No message
is lost in this way exactly as long as every loop over the handlers finds one to begin with.
-/

namespace RabbitJobQueue.Soundness.SilentConsumption

open Machine Model

variable {ε β δ η β' δ' η' : Type}

/-- An executor, and a dispatcher, never consume a message silently if and only if each of their loops
over the handlers finds a handler to call. -/
theorem neverSilent_iff_findsHandler [ExecutorFailureEnforcer ε] (config : ExecutorPoolConfig ε)
    (clock : Clock) (fromJson : β → Except Throwable δ) (waiting : List β)
    (actions : List (JobQueueAction β η)) (pool : JobQueueExecutorPool ε (Job δ η))
    (queue : JobQueue ε β δ η) (constructed : JobQueueExecutorPool.new config clock = .ok pool)
    (executed : run (JobQueue.step fromJson) (.starting pool waiting) actions = some queue)
    (notificationFromJson : NotificationKind → β' → Except Throwable δ') (workers : ℕ)
    (notifications : NotificationKind → List β') (events : List (DispatcherAction β' η'))
    (dispatcher : JobQueueDispatcher β' δ' η')
    (waitingWellFormed : ∀ kind, ∀ body ∈ notifications kind,
      SilentNotifications.Decodes notificationFromJson kind body)
    (publishedWellFormed : ∀ event ∈ events,
      SilentNotifications.PublishesWellFormed notificationFromJson event)
    (listened : run (JobQueueDispatcher.step notificationFromJson) (.starting workers notifications) events =
      some dispatcher) :
    ((∀ before after reached, actions = before ++ after →
      run (JobQueue.step fromJson) (.starting pool waiting) before = some reached →
      SilentJobs.Safe fromJson reached) ↔
    Along (JobQueue.step fromJson) SilentJobs.FindsHandler (.starting pool waiting) actions) ∧
    ((∀ before after reached, events = before ++ after →
      run (JobQueueDispatcher.step notificationFromJson) (.starting workers notifications) before =
        some reached →
      SilentNotifications.Safe notificationFromJson reached) ↔
    Along (JobQueueDispatcher.step notificationFromJson) SilentNotifications.FindsHandler
      (.starting workers notifications) events) := by
  obtain ⟨-, -, rfl⟩ := JobQueueExecutorPool.new_eq_ok constructed
  refine ⟨SilentJobs.safe_iff_findsHandler (JobQueue.coherent_starting _ waiting rfl) ?_ executed,
    SilentNotifications.safe_iff_findsHandler workers notifications waitingWellFormed publishedWellFormed
      listened⟩
  intro ref delivery read
  simp [JobQueue.starting] at read

/-- A job comes back from its handler and is acknowledged. -/
def jobDone : List (JobQueueAction ℕ ℕ) :=
  [.handlerEnds 0 true, .nextHandler 0, .callback 0 .answered, .callback 0 .answered]

/-- A success notification is delivered and handed to a worker, which takes it and decodes it. -/
def notified : List (DispatcherAction ℕ ℕ) :=
  [.deliver .success 0, .callback .success 0, .takeTask, .work 0]

/-- The same with a handler registered first: it is called, and the notification acknowledged. -/
def heard : List (DispatcherAction ℕ ℕ) :=
  [.initCallbacks, .initCallbacks, .onSuccess 7] ++ notified ++
    [.work 0, .handlerEnds 0 none, .work 0, .work 0]

private theorem run_jobDone : ∃ queue ∈ run (JobQueue.step .ok) (.starting UnstartedJobs.onePool [1])
    (UnstartedJobs.firstJob ++ jobDone), queue.deliveries.map (·.acks) = [1] := by decide +kernel

private theorem run_heard : ∃ dispatcher ∈ run (JobQueueDispatcher.step fun _ => .ok)
    (.starting 1 fun _ => [1]) heard, dispatcher.successes.deliveries.map (·.acks) = [1] := by
  decide +kernel

/-- The handlers are registered first. -/
theorem neverSilent_iff_findsHandler_registered :
    ∃ (queue : JobQueue MaxFailureEnforcer ℕ ℕ ℕ) (dispatcher : JobQueueDispatcher ℕ ℕ ℕ),
    queue.deliveries.map (·.acks) = [1] ∧ dispatcher.successes.deliveries.map (·.acks) = [1] ∧
    ((∀ before after reached, UnstartedJobs.firstJob ++ jobDone = before ++ after →
      run (JobQueue.step .ok) (.starting UnstartedJobs.onePool [1]) before = some reached →
      SilentJobs.Safe .ok reached) ↔
    Along (JobQueue.step .ok) SilentJobs.FindsHandler (.starting UnstartedJobs.onePool [1])
      (UnstartedJobs.firstJob ++ jobDone)) ∧
    ((∀ before after reached, heard = before ++ after →
      run (JobQueueDispatcher.step fun _ => .ok) (.starting 1 fun _ => [1]) before =
        some reached →
      SilentNotifications.Safe (fun _ => .ok) reached) ↔
    Along (JobQueueDispatcher.step fun _ => .ok) SilentNotifications.FindsHandler
      (.starting 1 fun _ => [1]) heard) := by
  obtain ⟨queue, executed, acked⟩ := run_jobDone
  obtain ⟨dispatcher, listened, notified'⟩ := run_heard
  have wellFormed : ∀ event ∈ heard, SilentNotifications.PublishesWellFormed (fun _ => .ok) event := by
    simp [heard, notified, DispatcherAction.onSuccess, SilentNotifications.PublishesWellFormed]
  exact ⟨queue, dispatcher, acked, notified', neverSilent_iff_findsHandler
    ⟨"jobs", 1, maxTotalFailures 5⟩ (Stream'.const 0) .ok [1] (UnstartedJobs.firstJob ++ jobDone)
    UnstartedJobs.onePool queue rfl executed (fun _ => .ok) 1 (fun _ => [1]) heard dispatcher
    (fun _ body _ => ⟨body, rfl⟩) wellFormed listened⟩

/-- Messages that are waiting at the construction are delivered and executed before `onJob` and
`onSuccess` are called. -/
theorem waiting_message_consumed :
    (¬ ∀ (actions : List (JobQueueAction ℕ ℕ)) (queue : JobQueue MaxFailureEnforcer ℕ ℕ ℕ),
      run (JobQueue.step .ok) (.starting UnstartedJobs.onePool [1]) actions = some queue →
      SilentJobs.NoneSilent queue) ∧
    ¬ ∀ (events : List (DispatcherAction ℕ ℕ)) (dispatcher : JobQueueDispatcher ℕ ℕ ℕ),
      run (JobQueueDispatcher.step fun _ => .ok) (.starting 1 fun _ => [1]) events = some dispatcher →
      SilentNotifications.NoneSilent dispatcher := by
  constructor
  · intro claim
    obtain ⟨found, execution, ⟨task, future, read, -⟩, -, carried, handler, registered, -⟩ := claim
      ([.pool (.exec 0 {} false), .pool (.exec 0 {} false), .pool (.exec 0 {} false), .deliver 0 0,
        .callback 0 .answered, .callback 0 .answered, .callback 0 .answered, .takeTask, .nextHandler 0,
        .callback 0 .answered, .callback 0 .answered]) _ rfl 0 _ rfl rfl
    contradiction
  · intro claim
    obtain ⟨task, found, own, read, execution, carried, handler, registered, -⟩ := claim
      ([.initCallbacks, .initCallbacks] ++ notified ++ [.work 0, .work 0]) _ rfl .success 0 _ rfl (by decide)
    contradiction

end RabbitJobQueue.Soundness.SilentConsumption
