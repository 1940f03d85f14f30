import RabbitJobQueue.Machine.Heap
import RabbitJobQueue.Model.JobQueueDispatcher

/-! # What one step of the dispatcher can do

A step adds a notification, hands one over to the workers, starts a task, takes a task one statement
further, or acknowledges. A task and its notification refer to each other, and how far the task is
tells what has come of the notification.
-/

namespace RabbitJobQueue.Model

open Machine

namespace JobQueueDispatcher

variable {β δ η : Type} {fromJson : NotificationKind → β → Except Throwable δ}
  {dispatcher next : JobQueueDispatcher β δ η} {action : DispatcherAction β η}
  {kind other : NotificationKind} {ref : DeliveryRef} {task : ℕ} {delivery : Notified β}

@[simp] theorem queue_setQueue (dispatcher : JobQueueDispatcher β δ η) (queue : NotificationQueue β η) :
    (dispatcher.setQueue kind queue).queue other = if other = kind then queue else dispatcher.queue other := by
  cases kind <;> cases other <;> rfl

/-- An assignment to one of the queues that leaves something as it is leaves it so on both. -/
theorem setQueue_frame {γ : Type} (view : NotificationQueue β η → γ) {queue : NotificationQueue β η}
    (same : view queue = view (dispatcher.queue kind)) :
    view ((dispatcher.setQueue kind queue).queue other) = view (dispatcher.queue other) := by
  rw [queue_setQueue]
  split
  · next here => subst here; exact same
  · rfl

@[simp] theorem setQueue_workers (dispatcher : JobQueueDispatcher β δ η) (queue : NotificationQueue β η) :
    (dispatcher.setQueue kind queue).workers = dispatcher.workers := by cases kind <;> rfl

@[simp] theorem setQueue_tasks (dispatcher : JobQueueDispatcher β δ η) (queue : NotificationQueue β η) :
    (dispatcher.setQueue kind queue).tasks = dispatcher.tasks := by cases kind <;> rfl

@[simp] theorem setQueue_initializing (dispatcher : JobQueueDispatcher β δ η)
    (queue : NotificationQueue β η) :
    (dispatcher.setQueue kind queue).initializing = dispatcher.initializing := by cases kind <;> rfl

@[simp] theorem withWorkers_queue (dispatcher : JobQueueDispatcher β δ η)
    (workers : ThreadPool (NotificationTask β δ η)) :
    (dispatcher.withWorkers workers).queue kind = dispatcher.queue kind := by cases kind <;> rfl

/-- What a statement of a task does to the task, the acknowledgement apart. -/
inductive Work (fromJson : NotificationKind → β → Except Throwable δ)
    (dispatcher : JobQueueDispatcher β δ η) (task : ℕ) (job : NotificationTask β δ η) :
    DispatcherAction β η → Stage δ η → Prop
  | decode {notification : δ} (stage : job.stage = .decoding)
      (decoded : fromJson job.kind job.body = .ok notification) :
      Work fromJson dispatcher task job (.work task)
        (.executing notification (dispatcher.queue job.kind).handlers.execute)
  | decodeThrows {exception : Throwable} (stage : job.stage = .decoding)
      (thrown : fromJson job.kind job.body = .error exception) :
      Work fromJson dispatcher task job (.work task) (.acknowledging none (some exception))
  | done {notification : δ} {execution : Execution η} (stage : job.stage = .executing notification execution)
      (idle : execution.running = none)
      (turn : (dispatcher.queue job.kind).handlers.turn execution = .done) :
      Work fromJson dispatcher task job (.work task) (.acknowledging (some execution) none)
  | modified {notification : δ} {execution : Execution η}
      (stage : job.stage = .executing notification execution) (idle : execution.running = none)
      (turn : (dispatcher.queue job.kind).handlers.turn execution = .threw) :
      Work fromJson dispatcher task job (.work task)
        (.acknowledging (some execution) (some .concurrentModification))
  | handle {notification : δ} {execution : Execution η} {handler : η}
      (stage : job.stage = .executing notification execution) (idle : execution.running = none)
      (turn : (dispatcher.queue job.kind).handlers.turn execution = .handle handler) :
      Work fromJson dispatcher task job (.work task)
        (.executing notification { execution with running := some handler })
  | handlerReturns {notification : δ} {execution : Execution η}
      (stage : job.stage = .executing notification execution) (inside : execution.running.isSome = true) :
      Work fromJson dispatcher task job (.handlerEnds task none)
        (.executing notification execution.finishHandler)
  | handlerThrows {notification : δ} {execution : Execution η} {exception : Throwable}
      (stage : job.stage = .executing notification execution) (inside : execution.running.isSome = true) :
      Work fromJson dispatcher task job (.handlerEnds task (some exception))
        (.acknowledging (some execution) (some exception))

/-- The step an action comes to, with everything the step has checked. -/
inductive Step (fromJson : NotificationKind → β → Except Throwable δ)
    (dispatcher next : JobQueueDispatcher β δ η) : DispatcherAction β η → Prop
  | publish (kind : NotificationKind) (body : β) (same : next = dispatcher.setQueue kind
        { dispatcher.queue kind with broker := (dispatcher.queue kind).broker.publish body }) :
      Step fromJson dispatcher next (.publish kind body)
  | initCallbacks (kind : NotificationKind) (rest : List NotificationKind)
      (first : dispatcher.initializing = kind :: rest)
      (same : next = { dispatcher with initializing := rest }.setQueue kind
        { dispatcher.queue kind with channel := some {} }) :
      Step fromJson dispatcher next .initCallbacks
  | deliver (kind : NotificationKind) (position : ℕ) (broker : Broker Unit β) (body : β)
      (opened : (dispatcher.queue kind).isOpen = true)
      (handed : (dispatcher.queue kind).broker.deliver position
        (dispatcher.queue kind).deliveries.length () = some (broker, body))
      (same : next = dispatcher.setQueue kind { dispatcher.queue kind with
        broker, deliveries := (dispatcher.queue kind).deliveries ++ [{ body }] }) :
      Step fromJson dispatcher next (.deliver kind position)
  | callback (kind : NotificationKind) (ref : DeliveryRef) (delivery : Notified β)
      (read : (dispatcher.queue kind).deliveries[ref]? = some delivery) (fresh : delivery.task = none)
      (same : next = (dispatcher.withWorkers { dispatcher.workers with
          tasks := dispatcher.tasks ++ [{ payload := { kind, delivery := ref, body := delivery.body } }]
          queue := dispatcher.workers.queue ++ [dispatcher.tasks.length] }).setQueue kind
        { dispatcher.queue kind with
          deliveries := (dispatcher.queue kind).deliveries.set ref
            { delivery with task := some dispatcher.tasks.length } }) :
      Step fromJson dispatcher next (.callback kind ref)
  | takeTask (task : ℕ) (rest : List ℕ)
      (same : next = dispatcher.withWorkers { dispatcher.workers with
          tasks := dispatcher.tasks.modify task (·.take id), queue := rest }) :
      Step fromJson dispatcher next .takeTask
  | work (action : DispatcherAction β η) (task : ℕ) (job : NotificationTask β δ η) (stage : Stage δ η)
      (active : dispatcher.running task = some job)
      (change : Work fromJson dispatcher task job action stage)
      (same : next = dispatcher.setStage task stage) :
      Step fromJson dispatcher next action
  | ack (task : ℕ) (job : NotificationTask β δ η) (execution : Option (Execution η))
      (exception : Option Throwable) (active : dispatcher.running task = some job)
      (stage : job.stage = .acknowledging execution exception)
      (opened : (dispatcher.queue job.kind).isOpen = true)
      (same : next = (dispatcher.withWorkers (dispatcher.workers.finish task
          (if exception.isNone then .normal else .exceptional))).setQueue job.kind
        ((dispatcher.queue job.kind).basicAck job.delivery)) :
      Step fromJson dispatcher next (.work task)
  | ackThrows (task : ℕ) (job : NotificationTask β δ η) (execution : Option (Execution η))
      (exception : Option Throwable) (active : dispatcher.running task = some job)
      (stage : job.stage = .acknowledging execution exception)
      (closed : (dispatcher.queue job.kind).isOpen = false)
      (same : next = dispatcher.withWorkers (dispatcher.workers.finish task .exceptional)) :
      Step fromJson dispatcher next (.work task)
  | register (kind : NotificationKind) (handler : η) (constructed : dispatcher.initializing = [])
      (same : next = dispatcher.setQueue kind { dispatcher.queue kind with
        handlers := (dispatcher.queue kind).handlers.register handler }) :
      Step fromJson dispatcher next (.register kind handler)
  | close (kind : NotificationKind) (cause : CloseCause)
      (opened : (dispatcher.queue kind).isOpen = true)
      (same : next = dispatcher.setQueue kind { dispatcher.queue kind with
        channel := (dispatcher.queue kind).channel.map (·.close cause)
        broker := (dispatcher.queue kind).broker.requeue fun _ => true }) :
      Step fromJson dispatcher next (.close kind cause)

private theorem work_spec {job : NotificationTask β δ η} (active : dispatcher.running task = some job)
    (worked : dispatcher.work fromJson task job = some next) : Step fromJson dispatcher next (.work task) := by
  rw [work] at worked
  split at worked
  · next stage =>
    split at worked <;> cases worked
    · next decoded => exact .work _ task job _ active (.decode stage decoded) rfl
    · next thrown => exact .work _ task job _ active (.decodeThrows stage thrown) rfl
  · next notification execution stage =>
    split at worked
    · contradiction
    · next idle =>
      have idle := Option.not_isSome_iff_eq_none.mp idle
      split at worked <;> cases worked
      · next turn => exact .work _ task job _ active (.done stage idle turn) rfl
      · next turn => exact .work _ task job _ active (.modified stage idle turn) rfl
      · next turn => exact .work _ task job _ active (.handle stage idle turn) rfl
  · next execution exception stage =>
    split at worked <;> cases worked
    · next opened => exact .ack task job execution exception active stage opened rfl
    · next closed => exact .ackThrows task job execution exception active stage (eq_false_of_ne_true closed) rfl

theorem step_spec (stepped : step fromJson dispatcher action = some next) :
    Step fromJson dispatcher next action := by
  cases action with
  | publish kind body => exact .publish kind body (Option.some.inj stepped).symm
  | initCallbacks =>
    unfold step at stepped
    dsimp only at stepped
    split at stepped
    · contradiction
    · next kind rest first => exact .initCallbacks kind rest first (Option.some.inj stepped).symm
  | deliver kind position =>
    unfold step at stepped
    dsimp only at stepped
    split at stepped
    · next opened =>
      obtain ⟨⟨broker, body⟩, handed, same⟩ := Option.map_eq_some_iff.mp stepped
      exact .deliver kind position broker body opened handed same.symm
    · contradiction
  | callback kind ref =>
    obtain ⟨delivery, read, called⟩ := Option.bind_eq_some_iff.mp stepped
    split at called
    · next waiting =>
      obtain ⟨⟨workers, task⟩, submitted, same⟩ := Option.map_eq_some_iff.mp called
      obtain ⟨-, rfl, rfl⟩ := ThreadPool.submit_eq_some.mp submitted
      rw [Bool.and_eq_true, Option.isNone_iff_eq_none] at waiting
      exact .callback kind ref delivery read waiting.1 same.symm
    · contradiction
  | takeTask =>
    obtain ⟨workers, taken, same⟩ := Option.map_eq_some_iff.mp stepped
    obtain ⟨task, rest, -, -, rfl⟩ := ThreadPool.take_eq_some.mp taken
    exact .takeTask task rest same.symm
  | work task =>
    obtain ⟨job, active, worked⟩ := Option.bind_eq_some_iff.mp stepped
    exact work_spec active worked
  | handlerEnds task exception =>
    obtain ⟨job, active, ended⟩ := Option.bind_eq_some_iff.mp stepped
    rw [handlerEnds] at ended
    split at ended
    · next notification execution stage =>
      split at ended <;> cases ended
      next inside =>
        cases exception with
        | none => exact .work _ task job _ active (.handlerReturns stage inside) rfl
        | some exception =>
          exact .work _ task job _ active (.handlerThrows stage inside) rfl
    · contradiction
  | register kind handler =>
    unfold step at stepped
    dsimp only at stepped
    split at stepped
    · next constructed =>
      exact .register kind handler (List.isEmpty_iff.mp constructed) (Option.some.inj stepped).symm
    · contradiction
  | close kind cause =>
    unfold step at stepped
    dsimp only at stepped
    split at stepped
    · next opened => exact .close kind cause opened (Option.some.inj stepped).symm
    · contradiction

/-- A notification was there before the step and may have been handed over or acknowledged, or it is
new. -/
inductive NotifiedOrigin (dispatcher next : JobQueueDispatcher β δ η) (kind : NotificationKind)
    (ref : DeliveryRef) (after : Notified β) : Prop
  | same (read : (dispatcher.queue kind).deliveries[ref]? = some after)
  | delivered (body : β) (waited : body ∈ (dispatcher.queue kind).broker.ready)
      (fresh : after = { body := body })
  | handedOver (before : Notified β) (read : (dispatcher.queue kind).deliveries[ref]? = some before)
      (fresh : before.task = none) (same : after = { before with task := some dispatcher.tasks.length })
  | acked (before : Notified β) (task : ℕ) (job : NotificationTask β δ η)
      (execution : Option (Execution η)) (exception : Option Throwable) (answer : FutureState)
      (read : (dispatcher.queue kind).deliveries[ref]? = some before)
      (active : dispatcher.running task = some job) (sameKind : job.kind = kind) (own : job.delivery = ref)
      (stage : job.stage = .acknowledging execution exception)
      (opened : (dispatcher.queue kind).isOpen = true)
      (tasks : next.tasks = dispatcher.tasks.modify task (·.finish answer))
      (same : after = { before with acks := before.acks + 1 })

theorem step_notified (stepped : step fromJson dispatcher action = some next) {after : Notified β}
    (read : (next.queue kind).deliveries[ref]? = some after) :
    NotifiedOrigin dispatcher next kind ref after := by
  cases step_spec stepped with
  | publish other body same =>
    subst same
    rw [setQueue_frame NotificationQueue.deliveries] at read
    · exact .same read
    · rfl
  | initCallbacks other rest first same =>
    subst same
    rw [setQueue_frame NotificationQueue.deliveries] at read
    · cases kind <;> exact .same read
    · cases other <;> rfl
  | deliver other position broker body opened handed same =>
    subst same
    rw [queue_setQueue] at read
    split at read
    · next here =>
      subst here
      obtain ⟨waited, -⟩ := Broker.deliver_eq_some.mp handed
      rcases getElem?_alloc_eq_some.mp read with old | ⟨-, fresh⟩
      · exact .same old
      · exact .delivered body (List.mem_of_getElem? waited) fresh
    · exact .same read
  | callback other place delivery known fresh same =>
    subst same
    rw [queue_setQueue] at read
    split at read
    · next here =>
      subst here
      dsimp only at read
      rw [List.getElem?_set] at read
      split at read
      · next here =>
        subst here
        split at read <;> cases read
        exact .handedOver delivery known fresh rfl
      · exact .same read
    · rw [withWorkers_queue] at read
      exact .same read
  | takeTask task rest same => subst same; rw [withWorkers_queue] at read; exact .same read
  | work action task job stage active change same =>
    subst same
    rw [setStage, withWorkers_queue] at read
    exact .same read
  | ack task job execution exception active stage opened same =>
    subst same
    rw [queue_setQueue] at read
    split at read
    · next here =>
      subst here
      obtain ⟨before, known, change⟩ := getElem?_modify_eq_some.mp read
      split at change
      · next own =>
        exact .acked before task job execution exception _ known active rfl own stage opened
          (setQueue_tasks ..) change
      · exact .same (change ▸ known)
    · rw [withWorkers_queue] at read
      exact .same read
  | ackThrows task job execution exception active stage closed same =>
    subst same
    rw [withWorkers_queue] at read
    exact .same read
  | register other handler constructed same =>
    subst same
    rw [setQueue_frame NotificationQueue.deliveries] at read
    · exact .same read
    · rfl
  | close other cause opened same =>
    subst same
    rw [setQueue_frame NotificationQueue.deliveries] at read
    · exact .same read
    · rfl

/-- What a step does to one task. -/
inductive TaskChange (fromJson : NotificationKind → β → Except Throwable δ)
    (dispatcher : JobQueueDispatcher β δ η) (action : DispatcherAction β η) (task : ℕ)
    (before : PoolTask (NotificationTask β δ η)) : PoolTask (NotificationTask β δ η) → Prop
  | take : TaskChange fromJson dispatcher action task before (before.take id)
  | work (stage : Stage δ η) (running : before.state = .running)
      (change : Work fromJson dispatcher task before.payload action stage) :
      TaskChange fromJson dispatcher action task before (before.advance ({ · with stage }))
  | finish (answer : FutureState) (running : before.state = .running) :
      TaskChange fromJson dispatcher action task before (before.finish answer)

/-- What a step does to the tasks. -/
inductive TaskStep (fromJson : NotificationKind → β → Except Throwable δ)
    (dispatcher next : JobQueueDispatcher β δ η) (action : DispatcherAction β η) : Prop
  | same (same : next.tasks = dispatcher.tasks)
  | submitted (kind : NotificationKind) (ref : DeliveryRef) (body : β)
      (more : next.tasks = dispatcher.tasks ++ [{ payload := { kind, delivery := ref, body } }])
  | changed (task : ℕ) (before after : PoolTask (NotificationTask β δ η))
      (read : dispatcher.tasks[task]? = some before)
      (change : TaskChange fromJson dispatcher action task before after)
      (moved : next.tasks = dispatcher.tasks.set task after)

/-- A task on a worker. -/
theorem running_eq_some {job : NotificationTask β δ η} : dispatcher.running task = some job ↔
    ∃ found, dispatcher.tasks[task]? = some found ∧ found.state = .running ∧ found.payload = job := by
  rw [running]
  constructor
  · intro read
    obtain ⟨found, known, rest⟩ := Option.bind_eq_some_iff.mp read
    split at rest
    · next active => exact ⟨found, known, active, Option.some.inj rest⟩
    · contradiction
  · rintro ⟨found, known, active, rfl⟩
    rw [known, Option.bind_some, if_pos active]

theorem step_tasks (stepped : step fromJson dispatcher action = some next) :
    TaskStep fromJson dispatcher next action := by
  cases step_spec stepped with
  | publish kind body same => subst same; exact .same (setQueue_tasks ..)
  | initCallbacks kind rest first same => subst same; exact .same (setQueue_tasks ..)
  | deliver kind position broker body opened handed same => subst same; exact .same (setQueue_tasks ..)
  | callback kind ref delivery known fresh same =>
    subst same
    exact .submitted kind ref delivery.body (setQueue_tasks ..)
  | takeTask task rest same =>
    subst same
    cases read : dispatcher.tasks[task]? with
    | none => exact .same (modify_eq_of_fixed (by simp [read]))
    | some before => exact .changed task before _ read .take (modify_eq_set read)
  | work action task job stage active work same =>
    subst same
    obtain ⟨before, read, running, rfl⟩ := running_eq_some.mp active
    exact .changed task before _ read (.work stage running work) (modify_eq_set read)
  | ack task job execution exception active stage opened same =>
    subst same
    obtain ⟨before, read, running, rfl⟩ := running_eq_some.mp active
    exact .changed task before _ read (.finish _ running) ((setQueue_tasks ..).trans (modify_eq_set read))
  | ackThrows task job execution exception active stage closed same =>
    subst same
    obtain ⟨before, read, running, rfl⟩ := running_eq_some.mp active
    exact .changed task before _ read (.finish _ running) (modify_eq_set read)
  | register kind handler constructed same => subst same; exact .same (setQueue_tasks ..)
  | close kind cause opened same => subst same; exact .same (setQueue_tasks ..)

/-- A task was there before the step and may have moved, or it is new. -/
inductive TaskOrigin (fromJson : NotificationKind → β → Except Throwable δ)
    (dispatcher : JobQueueDispatcher β δ η) (action : DispatcherAction β η) (task : ℕ)
    (after : PoolTask (NotificationTask β δ η)) : Prop
  | same (read : dispatcher.tasks[task]? = some after)
  | submitted (kind : NotificationKind) (ref : DeliveryRef) (body : β)
      (fresh : after = { payload := { kind, delivery := ref, body } })
  | changed (before : PoolTask (NotificationTask β δ η)) (read : dispatcher.tasks[task]? = some before)
      (change : TaskChange fromJson dispatcher action task before after)

theorem TaskStep.origin {after : PoolTask (NotificationTask β δ η)}
    (step : TaskStep fromJson dispatcher next action) (read : next.tasks[task]? = some after) :
    TaskOrigin fromJson dispatcher action task after := by
  cases step with
  | same same => exact .same (same ▸ read)
  | submitted kind ref body more =>
    rw [more] at read
    rcases getElem?_alloc_eq_some.mp read with old | ⟨-, fresh⟩
    · exact .same old
    · exact .submitted kind ref body fresh
  | changed other before moved known change set =>
    rw [set, List.getElem?_set] at read
    split at read
    · next here =>
      subst here
      split at read <;> cases read
      exact .changed before known change
    · exact .same read

end JobQueueDispatcher

end RabbitJobQueue.Model
