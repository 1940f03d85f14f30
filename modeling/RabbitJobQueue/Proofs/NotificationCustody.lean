import RabbitJobQueue.Machine.Schedule
import RabbitJobQueue.Proofs.NotificationHistory

/-! # Who has a notification, and who has a task

Every notification the broker has accepted is ready, held on the open channel of its queue by a delivery
that has not been acknowledged, or removed; and every task is in the queue of the workers, on a worker, or
answered. Nothing ever shuts the workers down.
-/

namespace RabbitJobQueue.Model.JobQueueDispatcher

open Machine ThreadPool

variable {β δ η : Type} {fromJson : NotificationKind → β → Except Throwable δ}
  {dispatcher next : JobQueueDispatcher β δ η} {action : DispatcherAction β η}
  {kind : NotificationKind} {ref : DeliveryRef} {delivery : Notified β} {queue later : NotificationQueue β η}

/-- What is held is held on an open channel, by a delivery that is not acknowledged. -/
def Holds (queue : NotificationQueue β η) : Prop :=
  ∀ held ∈ queue.broker.unacked, queue.isOpen = true ∧
    ∃ delivery, queue.deliveries[held.tag]? = some delivery ∧ delivery.acks = 0

private theorem holds_setQueue {source : JobQueueDispatcher β δ η}
    (same : ∀ kind, source.queue kind = dispatcher.queue kind) (holds : ∀ kind, Holds (dispatcher.queue kind))
    (changed : Holds later) (other : NotificationKind) : Holds ((source.setQueue kind later).queue other) := by
  rw [queue_setQueue]
  split
  · exact changed
  · rw [same]
    exact holds other

private theorem holds_step (holds : ∀ kind, Holds (dispatcher.queue kind))
    (stepped : step fromJson dispatcher action = some next) (kind : NotificationKind) :
    Holds (next.queue kind) := by
  cases step_spec stepped with
  | publish other body same =>
    subst same
    refine holds_setQueue (fun _ => rfl) holds ?_ kind
    exact holds other
  | initCallbacks other rest first same =>
    subst same
    refine holds_setQueue (fun kind => by cases kind <;> rfl) holds ?_ kind
    intro held member
    exact ⟨rfl, (holds other held member).2⟩
  | deliver other position broker body opened handed same =>
    subst same
    obtain ⟨-, rfl⟩ := Broker.deliver_eq_some.mp handed
    refine holds_setQueue (fun _ => rfl) holds ?_ kind
    intro held member
    refine ⟨opened, ?_⟩
    rcases List.mem_append.mp member with old | new
    · obtain ⟨-, delivery, read, unacked⟩ := holds other held old
      exact ⟨delivery, getElem?_alloc_of_some read, unacked⟩
    · rw [List.mem_singleton.mp new]
      exact ⟨_, List.getElem?_concat_length .., rfl⟩
  | callback other place delivery read fresh same =>
    subst same
    refine holds_setQueue (fun _ => withWorkers_queue ..) holds ?_ kind
    intro held member
    obtain ⟨opened, before, known, unacked⟩ := holds other held member
    refine ⟨opened, ?_⟩
    dsimp only
    rw [List.getElem?_set]
    split
    · next here =>
      subst here
      obtain ⟨inside, -⟩ := List.getElem?_eq_some_iff.mp read
      cases read.symm.trans known
      exact ⟨_, if_pos inside, unacked⟩
    · exact ⟨before, known, unacked⟩
  | takeTask task rest same => subst same; rw [withWorkers_queue]; exact holds kind
  | work action task job stage active change same =>
    subst same
    rw [setStage, withWorkers_queue]
    exact holds kind
  | ack task job execution exception active stage opened same =>
    subst same
    refine holds_setQueue (fun _ => withWorkers_queue ..) holds ?_ kind
    intro held member
    obtain ⟨old, other⟩ := Broker.mem_unacked_ack.mp member
    obtain ⟨-, before, known, unacked⟩ := holds job.kind held old
    refine ⟨opened, before, ?_, unacked⟩
    exact (getElem?_modify_other (Ne.symm other)).trans known
  | ackThrows task job execution exception active stage closed same =>
    subst same
    rw [withWorkers_queue]
    exact holds kind
  | register other handler constructed same =>
    subst same
    refine holds_setQueue (fun _ => rfl) holds ?_ kind
    exact holds other
  | close other cause opened same =>
    subst same
    refine holds_setQueue (fun _ => rfl) holds ?_ kind
    intro held member
    obtain ⟨-, impossible⟩ := Broker.mem_unacked_requeue.mp member
    contradiction

/-- The notification of that kind a step brings to the broker, if any. -/
def sent (kind : NotificationKind) : DispatcherAction β η → Option β
  | .publish other body => if other = kind then some body else none
  | _ => none

/-- What the broker of a queue has after a step, against what it had. -/
theorem inventory_setQueue {source : JobQueueDispatcher β δ η}
    (same : ∀ kind, source.queue kind = dispatcher.queue kind) {other : NotificationKind}
    (changed : later.broker.inventory.Perm (dispatcher.queue other).broker.inventory) :
    ((source.setQueue other later).queue kind).broker.inventory.Perm
      (dispatcher.queue kind).broker.inventory := by
  rw [queue_setQueue]
  split
  · next here => subst here; exact changed
  · rw [same]

/-- No step loses or duplicates a notification. -/
theorem inventory_step (stepped : step fromJson dispatcher action = some next) (kind : NotificationKind) :
    (next.queue kind).broker.inventory.Perm
      ((sent kind action).toList ++ (dispatcher.queue kind).broker.inventory) := by
  cases step_spec stepped with
  | publish other body same =>
    subst same
    rw [queue_setQueue, sent]
    split
    · next here =>
      subst here
      rw [if_pos rfl]
      exact Broker.publish_inventory _ _
    · next apart =>
      rw [if_neg (Ne.symm apart)]
      rfl
  | initCallbacks other rest first same =>
    subst same
    exact inventory_setQueue (fun kind => by cases kind <;> rfl) (.refl _)
  | deliver other position broker body opened handed same =>
    subst same
    exact inventory_setQueue (fun _ => rfl) (Broker.deliver_inventory handed)
  | callback other place delivery read fresh same =>
    subst same
    exact inventory_setQueue (fun _ => withWorkers_queue ..) (.refl _)
  | takeTask task rest same => subst same; rw [withWorkers_queue]; exact .refl _
  | work action task job stage active change same =>
    subst same
    rw [setStage, withWorkers_queue]
    cases change <;> exact .refl _
  | ack task job execution exception active stage opened same =>
    subst same
    exact inventory_setQueue (fun _ => withWorkers_queue ..) (Broker.ack_inventory _ _)
  | ackThrows task job execution exception active stage closed same =>
    subst same
    rw [withWorkers_queue]
    exact .refl _
  | register other handler constructed same =>
    subst same
    exact inventory_setQueue (fun _ => rfl) (.refl _)
  | close other cause opened same =>
    subst same
    exact inventory_setQueue (fun _ => rfl) (Broker.requeue_inventory _ _)

/-- What a step does to the workers. -/
inductive WorkersStep (dispatcher : JobQueueDispatcher β δ η) :
    ThreadPool (NotificationTask β δ η) → Prop
  | same : WorkersStep dispatcher dispatcher.workers
  | submitted {workers : ThreadPool (NotificationTask β δ η)} (task : NotificationTask β δ η) (place : ℕ)
      (submitted : dispatcher.workers.submit task = some (workers, place)) : WorkersStep dispatcher workers
  | taken {workers : ThreadPool (NotificationTask β δ η)} (taken : dispatcher.workers.take id = some workers) :
      WorkersStep dispatcher workers
  | advanced (task : ℕ) (stage : Stage δ η) :
      WorkersStep dispatcher (dispatcher.workers.advance task ({ · with stage }))
  | finished (task : ℕ) (answer : FutureState) (settles : answer ≠ .pending) :
      WorkersStep dispatcher (dispatcher.workers.finish task answer)

private theorem step_workers (stepped : step fromJson dispatcher action = some next) :
    WorkersStep dispatcher next.workers := by
  cases step_spec stepped with
  | publish | initCallbacks | deliver | register | close =>
    subst_vars
    rw [setQueue_workers]
    exact .same
  | callback kind ref delivery read fresh same =>
    obtain ⟨delivery, known, called⟩ := Option.bind_eq_some_iff.mp stepped
    split at called
    · obtain ⟨⟨workers, task⟩, submitted, rfl⟩ := Option.map_eq_some_iff.mp called
      rw [setQueue_workers]
      exact .submitted _ task submitted
    · contradiction
  | takeTask task rest same =>
    obtain ⟨workers, taken, rfl⟩ := Option.map_eq_some_iff.mp stepped
    exact .taken taken
  | work action task job stage active change same => subst same; exact .advanced task stage
  | ack task job execution exception active stage opened same =>
    subst same
    rw [setQueue_workers]
    exact .finished task _ (by split <;> decide)
  | ackThrows task job execution exception active stage closed same =>
    subst same
    exact .finished task _ (by decide)

/-- The workers are in working order. -/
structure Staffed (workers : ThreadPool (NotificationTask β δ η)) : Prop where
  scheduled : Scheduled (fun _ => True) workers
  accepting : workers.isShutdown = false
  positive : 0 < workers.size

private theorem WorkersStep.staffed {workers : ThreadPool (NotificationTask β δ η)}
    (step : WorkersStep dispatcher workers) (staffed : Staffed dispatcher.workers) : Staffed workers := by
  obtain ⟨scheduled, accepting, positive⟩ := staffed
  cases step with
  | same => exact ⟨scheduled, accepting, positive⟩
  | submitted task place submitted =>
    have after := scheduled.submit submitted
    obtain ⟨-, -, rfl⟩ := submit_eq_some.mp submitted
    exact ⟨after, accepting, positive⟩
  | taken taken =>
    have after := scheduled.take (fun _ => trivial) taken
    obtain ⟨task, rest, -, -, rfl⟩ := take_eq_some.mp taken
    exact ⟨after, accepting, positive⟩
  | advanced task stage => exact ⟨scheduled.advance fun _ _ => trivial, accepting, positive⟩
  | finished task answer settles => exact ⟨scheduled.finish settles, accepting, positive⟩

/-- A dispatcher in working order. -/
structure Working (dispatcher : JobQueueDispatcher β δ η) : Prop where
  coherent : Coherent dispatcher
  holds : ∀ kind, Holds (dispatcher.queue kind)
  staffed : Staffed dispatcher.workers

theorem working_starting {workers : ℕ} (positive : 0 < workers) (waiting : NotificationKind → List β) :
    Working (starting (δ := δ) (η := η) workers waiting) where
  coherent := coherent_starting workers waiting
  holds kind held member := by cases kind <;> simp [starting, JobQueueDispatcher.queue] at member
  staffed := ⟨scheduled_new workers, rfl, positive⟩

theorem working_step (working : Working dispatcher) (stepped : step fromJson dispatcher action = some next) :
    Working next :=
  ⟨coherent_step working.coherent stepped, holds_step working.holds stepped,
    (step_workers stepped).staffed working.staffed⟩

end RabbitJobQueue.Model.JobQueueDispatcher
