import RabbitJobQueue.Proofs.AckedStages

/-! # Notifications that no handler sees

A dispatcher acknowledges a notification in a `finally` block, so it makes no difference to the
broker whether a handler was called. One is called unless the loop over the handlers finds none, or
is stopped at its first turn because a handler has been registered since it began.
-/

namespace RabbitJobQueue.Soundness.SilentNotifications

open Machine Model Model.JobQueueDispatcher

variable {β δ η : Type} {fromJson : NotificationKind → β → Except Throwable δ}
  {dispatcher next : JobQueueDispatcher β δ η} {action : DispatcherAction β η}
  {kind : NotificationKind} {ref : DeliveryRef} {delivery : Notified β} {task : ℕ}
  {actions : List (DispatcherAction β η)}

/-- The body is a notification of this kind. -/
def Decodes (fromJson : NotificationKind → β → Except Throwable δ) (kind : NotificationKind) (body : β) :
    Prop :=
  ∃ notification, fromJson kind body = .ok notification

/-- If the step publishes a message, it is well formed. -/
def PublishesWellFormed (fromJson : NotificationKind → β → Except Throwable δ) :
    DispatcherAction β η → Prop
  | .publish kind body => Decodes fromJson kind body
  | _ => True

/-- Every message the broker has accepted, and every message it has handed out, is well formed. -/
structure AllWellFormed (fromJson : NotificationKind → β → Except Throwable δ)
    (dispatcher : JobQueueDispatcher β δ η) : Prop where
  accepted : ∀ kind, ∀ body ∈ (dispatcher.queue kind).broker.inventory, Decodes fromJson kind body
  notified : ∀ kind, ∀ delivery ∈ (dispatcher.queue kind).deliveries, Decodes fromJson kind delivery.body

private theorem mem_inventory_step {body : β} (stepped : step fromJson dispatcher action = some next)
    (member : body ∈ (next.queue kind).broker.inventory) :
    body ∈ (dispatcher.queue kind).broker.inventory ∨ action = .publish kind body := by
  cases step_spec stepped with
  | publish other sent same =>
    subst same
    rw [queue_setQueue] at member
    split at member
    · next here =>
      subst here
      rcases List.mem_cons.mp ((Broker.publish_inventory _ _).mem_iff.mp member) with rfl | old
      · exact .inr rfl
      · exact .inl old
    · exact .inl member
  | initCallbacks other rest first same =>
    subst same
    rw [setQueue_frame NotificationQueue.broker] at member
    · cases kind <;> exact .inl member
    · cases other <;> rfl
  | deliver other position broker sent opened handed same =>
    subst same
    rw [queue_setQueue] at member
    split at member
    · next here => subst here; exact .inl ((Broker.deliver_inventory handed).mem_iff.mp member)
    · exact .inl member
  | callback other ref delivery read fresh same =>
    subst same
    rw [setQueue_frame NotificationQueue.broker, withWorkers_queue] at member
    · exact .inl member
    · rw [withWorkers_queue]
  | takeTask task rest same => subst same; rw [withWorkers_queue] at member; exact .inl member
  | work action task job stage active change same =>
    subst same
    rw [setStage, withWorkers_queue] at member
    exact .inl member
  | ack task job execution exception active stage opened same =>
    subst same
    rw [queue_setQueue] at member
    split at member
    · next here => subst here; exact .inl ((Broker.ack_inventory _ _).mem_iff.mp member)
    · rw [withWorkers_queue] at member
      exact .inl member
  | ackThrows task job execution exception active stage closed same =>
    subst same
    rw [withWorkers_queue] at member
    exact .inl member
  | register other handler constructed same =>
    subst same
    rw [setQueue_frame NotificationQueue.broker] at member
    · exact .inl member
    · rfl
  | close other cause opened same =>
    subst same
    rw [queue_setQueue] at member
    split at member
    · next here => subst here; exact .inl ((Broker.requeue_inventory _ _).mem_iff.mp member)
    · exact .inl member

theorem allWellFormed_step (wellFormed : AllWellFormed fromJson dispatcher)
    (published : PublishesWellFormed fromJson action)
    (stepped : step fromJson dispatcher action = some next) : AllWellFormed fromJson next := by
  refine ⟨fun kind body member => ?_, fun kind delivery member => ?_⟩
  · rcases mem_inventory_step stepped member with old | rfl
    · exact wellFormed.accepted kind body old
    · exact published
  · obtain ⟨ref, read⟩ := List.mem_iff_getElem?.mp member
    cases step_notified stepped read with
    | same old => exact wellFormed.notified kind delivery (List.mem_of_getElem? old)
    | delivered body waited fresh =>
      subst fresh
      exact wellFormed.accepted kind body (Broker.mem_inventory.mpr (.inl waited))
    | handedOver before old fresh same =>
      subst same
      exact wellFormed.notified kind before (List.mem_of_getElem? old)
    | acked before task job execution exception answer old active sameKind own stage opened tasks same =>
      subst same
      exact wellFormed.notified kind before (List.mem_of_getElem? old)

theorem allWellFormed_starting {workers : ℕ} {waiting : NotificationKind → List β}
    (waitingWellFormed : ∀ kind, ∀ body ∈ waiting kind, Decodes fromJson kind body) :
    AllWellFormed fromJson (starting (δ := δ) (η := η) workers waiting) := by
  refine ⟨fun kind body member => waitingWellFormed kind body ?_, fun kind delivery member => ?_⟩
  · cases kind <;> simpa [starting, JobQueueDispatcher.queue, Broker.inventory] using member
  · cases kind <;> simp [starting, JobQueueDispatcher.queue] at member

/-- A registered handler has been called. -/
def Called (handlers : HandlerPool η) (stage : Stage δ η) : Prop :=
  ∃ execution, stage.execution = some execution ∧
    ∃ handler ∈ handlers.handlers, handler ∈ execution.returned ++ execution.running.toList

/-- A registered handler has been called for the notification. -/
def Passed (dispatcher : JobQueueDispatcher β δ η) (kind : NotificationKind) (delivery : Notified β) :
    Prop :=
  ∃ task found, delivery.task = some task ∧ dispatcher.tasks[task]? = some found ∧
    Called (dispatcher.queue kind).handlers found.payload.stage

/-- No notification has been acknowledged that no handler was called for. -/
def NoneSilent (dispatcher : JobQueueDispatcher β δ η) : Prop :=
  ∀ (kind : NotificationKind) (ref : DeliveryRef) (delivery : Notified β),
    (dispatcher.queue kind).deliveries[ref]? = some delivery → delivery.acks ≠ 0 →
    Passed dispatcher kind delivery

/-- If the step is the first turn of a loop over the handlers, with the channel still open, then there
is a handler, and none has been registered since the loop began. -/
def FindsHandler (dispatcher : JobQueueDispatcher β δ η) (action : DispatcherAction β η) : Prop :=
  ∀ (task : ℕ) (job : NotificationTask β δ η) (notification : δ) (execution : Execution η),
    action = .work task → dispatcher.running task = some job →
    job.stage = .executing notification execution → execution.running = none →
    execution.returned = [] → (dispatcher.queue job.kind).isOpen = true →
    (dispatcher.queue job.kind).handlers.handlers ≠ [] ∧
      (dispatcher.queue job.kind).handlers.handlers = execution.registered

private theorem called_lasting : Lasting (Called : HandlerPool η → Stage δ η → Prop) := by
  rintro handlers more stage grown ⟨execution, carried, handler, registered, inside⟩
  exact ⟨execution, carried, handler, grown.subset registered, inside⟩

/-- Who is called is registered. -/
theorem called_of_follows {handlers : HandlerPool η} {execution : Execution η} {stage : Stage δ η}
    (follows : execution.Follows handlers) (carried : stage.execution = some execution)
    (nonempty : execution.returned ++ execution.running.toList ≠ []) : Called handlers stage := by
  obtain ⟨handler, called⟩ := List.exists_mem_of_ne_nil _ nonempty
  exact ⟨execution, carried, handler,
    follows.registered.subset (follows.called.subset called), called⟩

/-- A loop that ends or throws without a handler having been called has found none, or has been
disturbed. -/
theorem returned_ne_nil {job : NotificationTask β δ η} {notification : δ} {execution : Execution η}
    (finds : FindsHandler dispatcher (.work task)) (active : dispatcher.running task = some job)
    (stage : job.stage = .executing notification execution) (idle : execution.running = none)
    (opened : (dispatcher.queue job.kind).isOpen = true)
    (turn : ∀ handler, (dispatcher.queue job.kind).handlers.turn execution ≠ .handle handler) :
    execution.returned ≠ [] := by
  intro none
  obtain ⟨nonempty, unmodified⟩ := finds task job notification execution rfl active stage idle none opened
  obtain ⟨first, rest, handlers⟩ := List.exists_cons_of_ne_nil nonempty
  apply turn first
  rw [HandlerPool.turn]
  rw [none, ← unmodified, handlers, if_neg (by simp), if_neg (by simp)]
  rfl

/-- A statement that leads to the `finally` block has a handler called behind it. -/
theorem enters_called (coherent : Coherent dispatcher) (wellFormed : AllWellFormed fromJson dispatcher)
    (finds : FindsHandler dispatcher action) : Enters Called fromJson dispatcher action := by
  intro task before execution exception read running work opened
  obtain ⟨delivery, known, _, body, recorded⟩ := coherent.linked task before read
  have active := running_eq_some.mpr ⟨before, read, running, rfl⟩
  cases work with
  | decodeThrows inside thrown =>
    obtain ⟨notification, decoded⟩ := wellFormed.notified _ delivery (List.mem_of_getElem? known)
    rw [body, thrown] at decoded
    contradiction
  | done inside idle turn =>
    have nonempty := returned_ne_nil finds active inside idle opened (by simp [turn])
    exact called_of_follows (recorded.follows _ (by rw [inside]; rfl)) rfl (by simp [nonempty])
  | modified inside idle turn =>
    have nonempty := returned_ne_nil finds active inside idle opened (by simp [turn])
    exact called_of_follows (recorded.follows _ (by rw [inside]; rfl)) rfl (by simp [nonempty])
  | handlerThrows inside called =>
    obtain ⟨handler, same⟩ := Option.isSome_iff_exists.mp called
    exact called_of_follows (recorded.follows _ (by rw [inside]; rfl)) rfl (by simp [same])

/-- A loop that calls nobody leads to the `finally` block. -/
theorem unbacked_of_not_findsHandler (coherent : Coherent dispatcher)
    (stepped : step fromJson dispatcher action = some next) (finds : ¬ FindsHandler dispatcher action) :
    Unbacked Called next := by
  rw [FindsHandler] at finds
  push Not at finds
  obtain ⟨task, job, notification, execution, rfl, active, stage, idle, none, opened, missing⟩ := finds
  obtain ⟨before, known, running, rfl⟩ := running_eq_some.mp active
  obtain ⟨_, _, _, _, recorded⟩ := coherent.linked task before known
  have follows := recorded.follows execution (by rw [stage]; rfl)
  have turn (handler : η) :
      (dispatcher.queue before.payload.kind).handlers.turn execution ≠ .handle handler := by
    intro turn
    rw [HandlerPool.turn] at turn
    rw [none] at turn
    split at turn
    · contradiction
    · next some =>
      split at turn
      · contradiction
      · next unmodified =>
        apply missing (by rintro empty; simp [empty] at some)
        exact (follows.registered.eq_of_length (Decidable.not_not.mp unmodified).symm).symm
  obtain ⟨exception, rfl⟩ := leaves_loop stepped active stage idle turn
  apply unbacked_setStage known running opened
  rintro ⟨_, carried, handler, -, called⟩
  cases carried
  rw [none, idle] at called
  contradiction

/-- Nothing has been acknowledged unheard, and the next statement of no task would. -/
def Safe (fromJson : NotificationKind → β → Except Throwable δ) (dispatcher : JobQueueDispatcher β δ η) :
    Prop :=
  NoneSilent dispatcher ∧ ∀ (task : ℕ) (next : JobQueueDispatcher β δ η),
    step fromJson dispatcher (.work task) = some next → NoneSilent next

theorem safe_iff_findsHandler (workers : ℕ) (waiting : NotificationKind → List β)
    (waitingWellFormed : ∀ kind, ∀ body ∈ waiting kind, Decodes fromJson kind body)
    (publishedWellFormed : ∀ action ∈ actions, PublishesWellFormed fromJson action)
    (ran : run (step fromJson) (starting workers waiting) actions = some dispatcher) :
    (∀ before after reached, actions = before ++ after →
      run (step fromJson) (starting workers waiting) before = some reached → Safe fromJson reached) ↔
    Along (step fromJson) FindsHandler (starting workers waiting) actions := by
  refine JobQueueDispatcher.safe_iff (AllWellFormed fromJson) called_lasting
    (fun _ _ _ => allWellFormed_step) (fun _ _ => enters_called)
    (fun _ _ _ => unbacked_of_not_findsHandler) ?_ publishedWellFormed ran
  exact allWellFormed_starting waitingWellFormed

end RabbitJobQueue.Soundness.SilentNotifications
