import RabbitJobQueue.Proofs.DispatcherSteps

/-! # The history of a notification and of its task

Every task of a dispatcher belongs to one notification, and every notification that has been handed
over to one task. Until its task has ended a notification is not acknowledged; the task ends with the
acknowledgement, or because the channel is closed.
-/

namespace RabbitJobQueue.Model.JobQueueDispatcher

open Machine

variable {β δ η : Type} {fromJson : NotificationKind → β → Except Throwable δ}
  {dispatcher next : JobQueueDispatcher β δ η} {action : DispatcherAction β η}
  {kind : NotificationKind} {ref : DeliveryRef} {task : ℕ} {delivery : Notified β}
  {queue later : NotificationQueue β η} {before after : PoolTask (NotificationTask β δ η)}

/-- What is left of a queue after a step: handlers have only been added, and the channel has not been
opened again. -/
structure Ages (queue later : NotificationQueue β η) : Prop where
  handlers : queue.handlers.handlers <+: later.handlers.handlers
  isOpen : later.isOpen = true → queue.isOpen = true ∨ queue.deliveries = []

private theorem Ages.of_same (handlers : later.handlers = queue.handlers)
    (channel : later.channel = queue.channel) : Ages queue later :=
  ⟨by rw [handlers], fun opened => .inl (by rwa [NotificationQueue.isOpen, channel] at opened)⟩

private theorem Ages.refl (queue : NotificationQueue β η) : Ages queue queue := .of_same rfl rfl

/-- An assignment to one of the queues. -/
theorem Ages.setQueue {source : JobQueueDispatcher β δ η}
    (same : ∀ kind, source.queue kind = dispatcher.queue kind)
    (changed : Ages (dispatcher.queue kind) later) (other : NotificationKind) :
    Ages (dispatcher.queue other) ((source.setQueue kind later).queue other) := by
  rw [queue_setQueue]
  split
  · next here => subst here; exact changed
  · rw [same]; exact .refl _

/-- A queue that `initCallbacks` has still to subscribe to has delivered nothing. -/
structure Unsubscribed (dispatcher : JobQueueDispatcher β δ η) : Prop where
  deliveries : ∀ kind ∈ dispatcher.initializing, (dispatcher.queue kind).deliveries = []
  isOpen : ∀ kind ∈ dispatcher.initializing, (dispatcher.queue kind).isOpen = false
  nodup : dispatcher.initializing.Nodup

/-- A step that leaves the constructor and the channels alone and adds no delivery. -/
theorem Unsubscribed.of_same (unsubscribed : Unsubscribed dispatcher)
    (initializing : next.initializing = dispatcher.initializing)
    (deliveries : ∀ kind, (dispatcher.queue kind).deliveries = [] → (next.queue kind).deliveries = [])
    (isOpen : ∀ kind, (dispatcher.queue kind).isOpen = false → (next.queue kind).isOpen = false) :
    Unsubscribed next where
  deliveries kind member :=
    deliveries kind (unsubscribed.deliveries kind (initializing ▸ member))
  isOpen kind member := isOpen kind (unsubscribed.isOpen kind (initializing ▸ member))
  nodup := initializing ▸ unsubscribed.nodup

private theorem Unsubscribed.setQueue {source : JobQueueDispatcher β δ η}
    (unsubscribed : Unsubscribed dispatcher) (initializing : source.initializing = dispatcher.initializing)
    (same : ∀ kind, source.queue kind = dispatcher.queue kind)
    (deliveries : (dispatcher.queue kind).deliveries = [] → later.deliveries = [])
    (isOpen : (dispatcher.queue kind).isOpen = false → later.isOpen = false) :
    Unsubscribed (source.setQueue kind later) := by
  refine unsubscribed.of_same (by rw [setQueue_initializing, initializing]) ?_ ?_
  · intro other empty
    rw [queue_setQueue]
    split
    · next here => subst here; exact deliveries empty
    · rw [same]; exact empty
  · intro other closed
    rw [queue_setQueue]
    split
    · next here => subst here; exact isOpen closed
    · rw [same]; exact closed

private theorem Unsubscribed.withWorkers {workers : ThreadPool (NotificationTask β δ η)}
    (unsubscribed : Unsubscribed dispatcher) : Unsubscribed (dispatcher.withWorkers workers) := by
  refine unsubscribed.of_same rfl (fun kind empty => ?_) fun kind closed => ?_
  · rw [withWorkers_queue]; exact empty
  · rw [withWorkers_queue]; exact closed

/-- The constructor has subscribed to the first of its queues. -/
theorem Unsubscribed.subscribe {rest : List NotificationKind} (unsubscribed : Unsubscribed dispatcher)
    (first : dispatcher.initializing = kind :: rest) :
    Unsubscribed (({ dispatcher with initializing := rest } : JobQueueDispatcher β δ η).setQueue kind later) := by
  obtain ⟨empty, closed, nodup⟩ := unsubscribed
  rw [first] at empty closed nodup
  have ⟨done, nodup⟩ := List.nodup_cons.mp nodup
  have others (other : NotificationKind) (member : other ∈ rest) :
      (({ dispatcher with initializing := rest } : JobQueueDispatcher β δ η).setQueue kind later).queue other =
        dispatcher.queue other := by
    rw [queue_setQueue, if_neg (by rintro rfl; exact done member)]
    cases other <;> rfl
  refine ⟨fun other member => ?_, fun other member => ?_, ?_⟩
  · rw [setQueue_initializing] at member
    rw [others other member]
    exact empty other (List.mem_cons_of_mem _ member)
  · rw [setQueue_initializing] at member
    rw [others other member]
    exact closed other (List.mem_cons_of_mem _ member)
  · rw [setQueue_initializing]
    exact nodup

private theorem unsubscribed_starting (workers : ℕ) (waiting : NotificationKind → List β) :
    Unsubscribed (starting (δ := δ) (η := η) workers waiting) where
  deliveries kind _ := by cases kind <;> rfl
  isOpen kind _ := by cases kind <;> rfl
  nodup := by simp [starting]

/-- How far a task is, with what has come of its notification. -/
structure Recorded (queue : NotificationQueue β η) (task : PoolTask (NotificationTask β δ η))
    (acks : ℕ) : Prop where
  follows : ∀ execution, task.payload.stage.execution = some execution →
    execution.Follows queue.handlers
  complete : ∀ execution, task.payload.stage = .acknowledging (some execution) none →
    execution.Complete
  progress : match task.state with
    | .waiting => task.future = .pending ∧ acks = 0 ∧ task.payload.stage = .decoding
    | .running => task.future = .pending ∧ acks = 0
    | .ended => task.future ≠ .pending ∧ (acks = 1 ∨ (acks = 0 ∧ queue.isOpen = false)) ∧
      ∃ execution exception, task.payload.stage = .acknowledging execution exception

/-- The notification has been handed over, and this is its task. -/
def IsTask (dispatcher : JobQueueDispatcher β δ η) (kind : NotificationKind) (ref : DeliveryRef)
    (delivery : Notified β) (found : PoolTask (NotificationTask β δ η)) : Prop :=
  ∃ task, delivery.task = some task ∧ dispatcher.tasks[task]? = some found ∧
    found.payload.kind = kind ∧ found.payload.delivery = ref

/-- Tasks and notifications belong together, and each has the record that fits. -/
structure Coherent (dispatcher : JobQueueDispatcher β δ η) : Prop where
  linked : ∀ (task : ℕ) (found : PoolTask (NotificationTask β δ η)),
    dispatcher.tasks[task]? = some found →
    ∃ delivery, (dispatcher.queue found.payload.kind).deliveries[found.payload.delivery]? = some delivery ∧
      delivery.task = some task ∧ delivery.body = found.payload.body ∧
      Recorded (dispatcher.queue found.payload.kind) found delivery.acks
  handed : ∀ (kind : NotificationKind) (ref : DeliveryRef) (delivery : Notified β),
    (dispatcher.queue kind).deliveries[ref]? = some delivery →
    (delivery.task = none ∧ delivery.acks = 0) ∨ ∃ found, IsTask dispatcher kind ref delivery found
  unsubscribed : Unsubscribed dispatcher

private theorem Recorded.ages {acks : ℕ} (ages : Ages queue later)
    (known : queue.deliveries[ref]? = some delivery)
    (recorded : Recorded queue before acks) : Recorded later before acks := by
  have nonempty : queue.deliveries ≠ [] := List.ne_nil_of_mem (List.mem_of_getElem? known)
  refine ⟨fun execution read => ?_, recorded.complete, ?_⟩
  · have follows := recorded.follows execution read
    exact ⟨follows.registered.trans ages.handlers, follows.called⟩
  · have progress := recorded.progress
    split at progress
    · exact progress
    · exact progress
    · obtain ⟨settled, acked | ⟨unacked, closed⟩, stage⟩ := progress
      · exact ⟨settled, .inl acked, stage⟩
      · refine ⟨settled, .inr ⟨unacked, ?_⟩, stage⟩
        by_contra opened
        rcases ages.isOpen (Bool.not_eq_false _ ▸ opened) with still | empty
        · rw [still] at closed
          contradiction
        · exact nonempty empty

/-- Taking a task is no news for its notification. -/
theorem Recorded.take {acks : ℕ} (recorded : Recorded queue before acks) :
    Recorded queue (before.take id) acks := by
  have ⟨follows, complete, progress⟩ := recorded
  rw [PoolTask.take]
  split
  · next pending =>
    refine ⟨follows, complete, ⟨pending, ?_⟩⟩
    split at progress
    · exact progress.2.1
    · exact progress.2
    · exact absurd pending progress.1
  · next settled =>
    refine ⟨follows, complete, ?_⟩
    split at progress
    · exact absurd progress.1 settled
    · exact absurd progress.1 settled
    · exact progress

private theorem Recorded.work {acks : ℕ} {stage : Stage δ η} (running : before.state = .running)
    (change : Work fromJson dispatcher task before.payload action stage)
    (recorded : Recorded (dispatcher.queue before.payload.kind) before acks) :
    Recorded (dispatcher.queue before.payload.kind) (before.advance ({ · with stage })) acks := by
  have ⟨follows, _, progress⟩ := recorded
  rw [running] at progress
  have untouched : match (before.advance ({ · with stage })).state with
      | .waiting => before.future = .pending ∧ acks = 0 ∧ stage = .decoding
      | .running => before.future = .pending ∧ acks = 0
      | .ended => before.future ≠ .pending ∧
        (acks = 1 ∨ (acks = 0 ∧ (dispatcher.queue before.payload.kind).isOpen = false)) ∧
        ∃ execution exception, stage = .acknowledging execution exception := by
    rw [show (before.advance ({ · with stage })).state = .running from running]
    exact progress
  refine ⟨?_, ?_, untouched⟩
  · intro execution carried
    cases change with
    | decode stage decoded =>
      cases carried
      exact Execution.follows_execute _
    | decodeThrows stage thrown => cases carried
    | done stage idle turn =>
      cases carried
      exact follows _ (by rw [stage]; rfl)
    | modified stage idle turn =>
      cases carried
      exact follows _ (by rw [stage]; rfl)
    | handle stage idle turn =>
      cases carried
      exact (follows _ (by rw [stage]; rfl)).handle idle turn
    | handlerReturns stage inside =>
      cases carried
      exact (follows _ (by rw [stage]; rfl)).finishHandler
    | handlerThrows stage inside =>
      cases carried
      exact follows _ (by rw [stage]; rfl)
  · intro execution carried
    cases change with
    | done stage idle turn =>
      cases carried
      exact (follows _ (by rw [stage]; rfl)).complete idle turn
    | _ => cases carried

/-- The task comes to its end, with the acknowledgement or without it. -/
theorem Recorded.finish {acks more : ℕ} {answer : FutureState} {execution : Option (Execution η)}
    {exception : Option Throwable} (running : before.state = .running)
    (stage : before.payload.stage = .acknowledging execution exception) (settles : answer ≠ .pending)
    (outcome : more = 1 ∨ (more = 0 ∧ queue.isOpen = false)) (recorded : Recorded queue before acks) :
    Recorded queue (before.finish answer) more := by
  have ⟨follows, complete, progress⟩ := recorded
  rw [running] at progress
  refine ⟨?_, ?_, ?_⟩
  · rw [PoolTask.finish_payload]; exact follows
  · rw [PoolTask.finish_payload]; exact complete
  · rw [PoolTask.finish_state, PoolTask.finish_future, PoolTask.finish_payload, if_pos progress.1]
    exact ⟨settles, outcome, execution, exception, stage⟩

/-- Nothing happens to tasks or deliveries. -/
theorem Coherent.frame (coherent : Coherent dispatcher)
    (ages : ∀ kind, Ages (dispatcher.queue kind) (next.queue kind))
    (unsubscribed : Unsubscribed next) (tasks : next.tasks = dispatcher.tasks)
    (deliveries : ∀ kind, (next.queue kind).deliveries = (dispatcher.queue kind).deliveries) :
    Coherent next where
  linked task found read := by
    obtain ⟨delivery, known, own, body, recorded⟩ := coherent.linked task found (tasks ▸ read)
    exact ⟨delivery, by rw [deliveries]; exact known, own, body, recorded.ages (ages _) known⟩
  handed kind ref delivery read := by
    rw [deliveries] at read
    rcases coherent.handed kind ref delivery read with fresh | ⟨found, task, own, known, same⟩
    · exact .inl fresh
    · exact .inr ⟨found, task, own, tasks ▸ known, same⟩
  unsubscribed

/-- One task takes a step, and with it, it may be, the acknowledgements of its notification. -/
theorem Coherent.advance (coherent : Coherent dispatcher) (bump : ℕ → ℕ) (stage : Stage δ η)
    (ages : ∀ kind, Ages (dispatcher.queue kind) (next.queue kind))
    (initializing : next.initializing = dispatcher.initializing)
    (isOpen : ∀ kind, (next.queue kind).isOpen = (dispatcher.queue kind).isOpen)
    (read : dispatcher.tasks[task]? = some before) (moved : next.tasks = dispatcher.tasks.set task after)
    (payload : after.payload = { before.payload with stage })
    (deliveries : ∀ kind, (next.queue kind).deliveries = if kind = before.payload.kind then
        (dispatcher.queue kind).deliveries.modify before.payload.delivery
          fun delivery => { delivery with acks := bump delivery.acks }
      else (dispatcher.queue kind).deliveries)
    (recorded : ∀ acks, Recorded (dispatcher.queue before.payload.kind) before acks →
      Recorded (dispatcher.queue before.payload.kind) after (bump acks)) : Coherent next := by
  obtain ⟨inside, -⟩ := List.getElem?_eq_some_iff.mp read
  obtain ⟨own, readOwn, ownTask, ownBody, ownRecord⟩ := coherent.linked task before read
  refine ⟨?_, ?_, coherent.unsubscribed.of_same initializing ?_ fun kind closed => (isOpen kind).trans closed⟩
  · intro other found readFound
    rw [moved, List.getElem?_set] at readFound
    split at readFound
    · next same =>
      subst same
      cases readFound
      rw [payload]
      refine ⟨{ own with acks := bump own.acks }, ?_, ownTask, ownBody, ?_⟩
      · rw [deliveries, if_pos rfl]
        exact getElem?_modify_self readOwn
      · exact (recorded _ ownRecord).ages (ages _) readOwn
    · next distinct =>
      obtain ⟨delivery, known, task', body, record⟩ := coherent.linked other found readFound
      refine ⟨delivery, ?_, task', body, record.ages (ages _) known⟩
      rw [deliveries]
      split
      · next sameKind =>
        rw [getElem?_modify_other]
        · exact known
        · intro sameRef
          rw [sameKind, ← sameRef] at known
          cases readOwn.symm.trans known
          exact distinct (Option.some.inj (ownTask.symm.trans task'))
      · exact known
  · intro kind ref delivery readDelivery
    have source : ∃ old, (dispatcher.queue kind).deliveries[ref]? = some old ∧ delivery.task = old.task ∧
        (old.task = none → delivery.acks = old.acks) := by
      rw [deliveries] at readDelivery
      split at readDelivery
      · next sameKind =>
        obtain ⟨old, readOld, change⟩ := getElem?_modify_eq_some.mp readDelivery
        refine ⟨old, readOld, ?_, fun fresh => ?_⟩
        · rw [change]; split <;> rfl
        · split at change
          · next sameRef =>
            subst sameRef sameKind
            cases readOwn.symm.trans readOld
            rw [fresh] at ownTask
            contradiction
          · rw [change]
      · exact ⟨delivery, readDelivery, rfl, fun _ => rfl⟩
    obtain ⟨old, readOld, sameTask, sameAcks⟩ := source
    rcases coherent.handed kind ref old readOld with ⟨none, acks⟩ | ⟨found, other, ownOther, known, match'⟩
    · exact .inl ⟨sameTask.trans none, (sameAcks none).trans acks⟩
    · by_cases here : task = other
      · subst here
        cases read.symm.trans known
        refine .inr ⟨after, task, sameTask.trans ownOther, ?_, ?_⟩
        · rw [moved, List.getElem?_set_self inside]
        · rw [payload]; exact match'
      · refine .inr ⟨found, other, sameTask.trans ownOther, ?_, match'⟩
        rw [moved, List.getElem?_set_ne here]
        exact known
  · intro kind empty
    rw [deliveries, empty]
    split
    · exact List.modify_nil ..
    · rfl

/-- One task takes a step of its own. -/
theorem Coherent.withWorkers {workers : ThreadPool (NotificationTask β δ η)}
    (coherent : Coherent dispatcher) (stage : Stage δ η) (read : dispatcher.tasks[task]? = some before)
    (moved : workers.tasks = dispatcher.tasks.set task after)
    (payload : after.payload = { before.payload with stage })
    (recorded : ∀ acks, Recorded (dispatcher.queue before.payload.kind) before acks →
      Recorded (dispatcher.queue before.payload.kind) after acks) :
    Coherent (dispatcher.withWorkers workers) := by
  refine coherent.advance id stage (fun kind => ?_) rfl (fun kind => ?_) read moved payload
    (fun kind => ?_) recorded
  · rw [withWorkers_queue]; exact .refl _
  · rw [withWorkers_queue]
  · rw [withWorkers_queue]
    split
    · exact (List.modify_id ..).symm
    · rfl

/-- The broker hands out one more message. -/
theorem Coherent.deliver {queue : NotificationQueue β η} {body : β} (coherent : Coherent dispatcher)
    (opened : (dispatcher.queue kind).isOpen = true)
    (deliveries : queue.deliveries = (dispatcher.queue kind).deliveries ++ [{ body := body }])
    (handlers : queue.handlers = (dispatcher.queue kind).handlers)
    (channel : queue.channel = (dispatcher.queue kind).channel) :
    Coherent (dispatcher.setQueue kind queue) := by
  have ages := Ages.setQueue (fun _ => rfl) (Ages.of_same handlers channel)
  have grown : ∀ (other : NotificationKind) (ref : DeliveryRef) (delivery : Notified β),
      (dispatcher.queue other).deliveries[ref]? = some delivery →
      ((dispatcher.setQueue kind queue).queue other).deliveries[ref]? = some delivery := by
    intro other ref delivery read
    rw [queue_setQueue]
    split
    · next same =>
      rw [deliveries]
      exact getElem?_alloc_of_some (same ▸ read)
    · exact read
  refine ⟨?_, ?_, ?_⟩
  · intro task found read
    rw [setQueue_tasks] at read
    obtain ⟨delivery, known, own, body, recorded⟩ := coherent.linked task found read
    exact ⟨delivery, grown _ _ _ known, own, body, recorded.ages (ages _) known⟩
  · intro other ref delivery read
    have origin : (dispatcher.queue other).deliveries[ref]? = some delivery ∨
        (delivery.task = none ∧ delivery.acks = 0) := by
      rw [queue_setQueue] at read
      split at read
      · next same =>
        rw [deliveries] at read
        rcases getElem?_alloc_eq_some.mp read with old | ⟨-, rfl⟩
        · exact .inl (same ▸ old)
        · exact .inr ⟨rfl, rfl⟩
      · exact .inl read
    rcases origin with old | fresh
    · rcases coherent.handed other ref delivery old with fresh | ⟨found, task, own, known, same⟩
      · exact .inl fresh
      · exact .inr ⟨found, task, own, by rw [setQueue_tasks]; exact known, same⟩
    · exact .inl fresh
  · have subscribed : kind ∉ dispatcher.initializing := by
      intro member
      rw [coherent.unsubscribed.isOpen kind member] at opened
      contradiction
    refine ⟨fun other member => ?_, fun other member => ?_, by simpa using coherent.unsubscribed.nodup⟩
    · rw [setQueue_initializing] at member
      rw [queue_setQueue, if_neg (by rintro rfl; exact subscribed member)]
      exact coherent.unsubscribed.deliveries other member
    · rw [setQueue_initializing] at member
      rw [queue_setQueue, if_neg (by rintro rfl; exact subscribed member)]
      exact coherent.unsubscribed.isOpen other member

/-- The delivery callback submits the task of its notification. -/
theorem Coherent.handOver {queue : NotificationQueue β η} {workers : ThreadPool (NotificationTask β δ η)}
    (coherent : Coherent dispatcher) (read : (dispatcher.queue kind).deliveries[ref]? = some delivery)
    (fresh : delivery.task = none) (submitted : workers.tasks = dispatcher.tasks ++
      [{ payload := { kind, delivery := ref, body := delivery.body } }])
    (deliveries : queue.deliveries = (dispatcher.queue kind).deliveries.set ref
      { delivery with task := some dispatcher.tasks.length })
    (handlers : queue.handlers = (dispatcher.queue kind).handlers)
    (channel : queue.channel = (dispatcher.queue kind).channel) :
    Coherent ((dispatcher.withWorkers workers).setQueue kind queue) := by
  obtain ⟨inside, -⟩ := List.getElem?_eq_some_iff.mp read
  have untouched : delivery.acks = 0 := by
    rcases coherent.handed kind ref delivery read with ⟨-, acks⟩ | ⟨found, task, own, -⟩
    · exact acks
    · rw [fresh] at own
      contradiction
  have ages := Ages.setQueue (fun _ => withWorkers_queue dispatcher workers)
    (Ages.of_same handlers channel)
  have known : ∀ (other : NotificationKind) (place : DeliveryRef),
      (((dispatcher.withWorkers workers).setQueue kind queue).queue other).deliveries[place]? =
        if other = kind ∧ ref = place then some { delivery with task := some dispatcher.tasks.length }
        else (dispatcher.queue other).deliveries[place]? := by
    intro other place
    rw [queue_setQueue]
    by_cases sameKind : other = kind
    · subst sameKind
      rw [if_pos rfl, deliveries]
      by_cases here : ref = place
      · subst here
        rw [if_pos ⟨rfl, rfl⟩, List.getElem?_set_self inside]
      · rw [List.getElem?_set_ne here, if_neg fun both => here both.2]
    · rw [if_neg sameKind, if_neg fun both => sameKind both.1, withWorkers_queue]
  have allTasks : ((dispatcher.withWorkers workers).setQueue kind queue).tasks = dispatcher.tasks ++
      [{ payload := { kind, delivery := ref, body := delivery.body } }] := by
    rw [setQueue_tasks]
    exact submitted
  refine ⟨?_, ?_, ?_⟩
  · intro task found readTask
    rw [allTasks] at readTask
    rcases getElem?_alloc_eq_some.mp readTask with old | ⟨rfl, rfl⟩
    · obtain ⟨one, readOne, own, body, recorded⟩ := coherent.linked task found old
      refine ⟨one, ?_, own, body, recorded.ages (ages _) readOne⟩
      rw [known, if_neg]
      · exact readOne
      · rintro ⟨sameKind, sameRef⟩
        rw [sameKind, ← sameRef] at readOne
        cases read.symm.trans readOne
        rw [fresh] at own
        contradiction
    · refine ⟨{ delivery with task := some dispatcher.tasks.length }, ?_, rfl, rfl, ?_⟩
      · rw [known, if_pos ⟨rfl, rfl⟩]
      · exact ⟨by simp [Stage.execution], by simp, rfl, untouched, rfl⟩
  · intro other place one readOne
    rw [known] at readOne
    split at readOne
    · next here =>
      cases readOne
      obtain ⟨rfl, rfl⟩ := here
      refine .inr ⟨{ payload := { kind := other, delivery := ref, body := delivery.body } }, _, rfl, ?_, rfl, rfl⟩
      rw [allTasks]
      exact List.getElem?_concat_length ..
    · rcases coherent.handed other place one readOne with unsent | ⟨found, task, own, old, same⟩
      · exact .inl unsent
      · exact .inr ⟨found, task, own, by rw [allTasks]; exact getElem?_alloc_of_some old, same⟩
  · refine coherent.unsubscribed.setQueue rfl (fun _ => withWorkers_queue dispatcher workers) ?_ ?_
    · intro empty
      rw [empty] at read
      contradiction
    · intro closed
      rwa [NotificationQueue.isOpen, channel]

theorem coherent_starting (workers : ℕ) (waiting : NotificationKind → List β) :
    Coherent (starting (δ := δ) (η := η) workers waiting) where
  linked := by simp [starting, tasks]
  handed kind ref delivery read := by cases kind <;> simp [starting, JobQueueDispatcher.queue] at read
  unsubscribed := unsubscribed_starting workers waiting

theorem step_ages (unsubscribed : Unsubscribed dispatcher)
    (stepped : step fromJson dispatcher action = some next) (other : NotificationKind) :
    Ages (dispatcher.queue other) (next.queue other) := by
  cases step_spec stepped with
  | publish kind body same =>
    subst same
    refine Ages.setQueue (fun _ => rfl) ?_ other
    exact .of_same rfl rfl
  | initCallbacks kind rest first same =>
    subst same
    have empty := unsubscribed.deliveries kind (by rw [first]; exact List.mem_cons_self)
    refine Ages.setQueue (fun kind => by cases kind <;> rfl) ?_ other
    exact ⟨List.prefix_refl _, fun _ => .inr empty⟩
  | deliver kind position broker body opened handed same =>
    subst same
    refine Ages.setQueue (fun _ => rfl) ?_ other
    exact .of_same rfl rfl
  | callback kind ref delivery read fresh same =>
    subst same
    refine Ages.setQueue (fun _ => withWorkers_queue ..) ?_ other
    exact .of_same rfl rfl
  | takeTask task rest same => subst same; rw [withWorkers_queue]; exact .refl _
  | work action task job stage active change same =>
    subst same
    rw [setStage, withWorkers_queue]
    exact .refl _
  | ack task job execution exception active stage opened same =>
    subst same
    refine Ages.setQueue (fun _ => withWorkers_queue ..) ?_ other
    exact .of_same rfl rfl
  | ackThrows task job execution exception active stage closed same =>
    subst same
    rw [withWorkers_queue]
    exact .refl _
  | register kind handler constructed same =>
    subst same
    refine Ages.setQueue (fun _ => rfl) ?_ other
    exact ⟨List.prefix_append _ _, .inl⟩
  | close kind cause opened same =>
    subst same
    refine Ages.setQueue (fun _ => rfl) ?_ other
    exact ⟨List.prefix_refl _, fun _ => .inl opened⟩

/-- An assignment to one of the queues that no task and no delivery notices. -/
theorem Coherent.setQueue (coherent : Coherent dispatcher)
    (deliveries : later.deliveries = (dispatcher.queue kind).deliveries)
    (ages : Ages (dispatcher.queue kind) later)
    (isOpen : (dispatcher.queue kind).isOpen = false → later.isOpen = false) :
    Coherent (dispatcher.setQueue kind later) := by
  refine coherent.frame (.setQueue (fun _ => rfl) ages) (coherent.unsubscribed.setQueue rfl
    (fun _ => rfl) deliveries.trans isOpen) (setQueue_tasks ..) fun other => ?_
  exact setQueue_frame NotificationQueue.deliveries deliveries

theorem coherent_step (coherent : Coherent dispatcher)
    (stepped : step fromJson dispatcher action = some next) : Coherent next := by
  have ages := step_ages coherent.unsubscribed stepped
  cases step_spec stepped with
  | publish kind body same =>
    subst same
    exact coherent.setQueue rfl (.of_same rfl rfl) id
  | initCallbacks kind rest first same =>
    subst same
    apply coherent.frame ages (coherent.unsubscribed.subscribe first) (setQueue_tasks ..)
    intro other
    rw [queue_setQueue]
    split
    · next here => subst here; rfl
    · cases other <;> rfl
  | deliver kind position broker body opened handed same =>
    subst same
    exact coherent.deliver opened rfl rfl rfl
  | callback kind ref delivery read fresh same =>
    subst same
    exact coherent.handOver read fresh rfl rfl rfl rfl
  | takeTask task rest same =>
    subst same
    cases read : dispatcher.tasks[task]? with
    | none =>
      refine coherent.frame ages coherent.unsubscribed.withWorkers ?_ fun kind => by rw [withWorkers_queue]
      exact modify_eq_of_fixed (by simp [read])
    | some before =>
      exact coherent.withWorkers before.payload.stage read (modify_eq_set read)
        (PoolTask.take_id_payload before) fun _ => .take
  | work action task job stage active change same =>
    subst same
    obtain ⟨before, read, running, rfl⟩ := running_eq_some.mp active
    exact coherent.withWorkers stage read (modify_eq_set read) rfl fun _ => .work running change
  | ack task job execution exception active stage opened same =>
    subst same
    obtain ⟨before, read, running, rfl⟩ := running_eq_some.mp active
    have payload := PoolTask.finish_payload (if exception.isNone then .normal else .exceptional) before
    refine coherent.advance (fun acks => acks + 1) before.payload.stage ages (setQueue_initializing ..)
      (fun other => ?_) read ?_ payload (fun other => ?_) fun acks recorded => ?_
    · rw [setQueue_frame NotificationQueue.isOpen, withWorkers_queue]
      rw [withWorkers_queue]
      rfl
    · rw [setQueue_tasks]
      exact modify_eq_set read
    · rw [queue_setQueue]
      split
      · next here => subst here; rfl
      · rw [withWorkers_queue]
    · have unacked := recorded.progress
      rw [running] at unacked
      refine recorded.finish running stage ?_ (.inl (by rw [unacked.2]))
      split <;> decide
  | ackThrows task job execution exception active stage closed same =>
    subst same
    obtain ⟨before, read, running, rfl⟩ := running_eq_some.mp active
    refine coherent.withWorkers before.payload.stage read (modify_eq_set read)
      (PoolTask.finish_payload _ _) fun acks recorded => ?_
    have unacked := recorded.progress
    rw [running] at unacked
    exact recorded.finish running stage (by decide) (.inr ⟨unacked.2, closed⟩)
  | register kind handler constructed same =>
    subst same
    exact coherent.setQueue rfl ⟨List.prefix_append _ _, .inl⟩ id
  | close kind cause opened same =>
    subst same
    refine coherent.setQueue rfl ⟨List.prefix_refl _, fun _ => .inl opened⟩ fun closed => ?_
    rw [opened] at closed
    contradiction

theorem coherent_of_run {actions : List (DispatcherAction β η)} (coherent : Coherent dispatcher)
    (ran : run (step fromJson) dispatcher actions = some next) : Coherent next :=
  run_invariant (fun _ _ _ coherent stepped => coherent_step coherent stepped) coherent ran

end RabbitJobQueue.Model.JobQueueDispatcher
