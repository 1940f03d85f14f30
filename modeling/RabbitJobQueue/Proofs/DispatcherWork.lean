import RabbitJobQueue.Proofs.NotificationCustody

/-! # The work a dispatcher has left

With nobody sending notifications, registering handlers or closing channels, the dispatcher still finishes
its constructor, takes what the broker hands out, gives each notification to the workers, and the workers
decode it, call the handlers and acknowledge. Each of these steps makes `work` smaller: it counts the
statements and turns a task has left, and for every notification not handed over yet all of a task's.
-/

namespace RabbitJobQueue.Model

open Machine

/-- What the dispatcher does by itself, as long as the handlers it calls come to an end. -/
def DispatcherAction.isOwn {β η : Type} : DispatcherAction β η → Bool
  | .initCallbacks | .deliver .. | .callback .. | .takeTask | .work _ | .handlerEnds .. => true
  | .publish .. | .register .. | .close .. => false

namespace JobQueueDispatcher

open ThreadPool

variable {β δ η : Type} {fromJson : NotificationKind → β → Except Throwable δ}
  {dispatcher next : JobQueueDispatcher β δ η} {action : DispatcherAction β η}
  {kind : NotificationKind} {ref : DeliveryRef} {delivery : Notified β} {queue later : NotificationQueue β η}

/-- How many handlers a notification of the kind is passed to. -/
def handlerCount (dispatcher : JobQueueDispatcher β δ η) (kind : NotificationKind) : ℕ :=
  (dispatcher.queue kind).handlers.handlers.length

/-- The statements and turns in front of `basicAck`, two turns for each handler. -/
def stageLeft (handlers : ℕ) : Stage δ η → ℕ
  | .decoding => 2 * handlers + 2
  | .executing _ execution =>
    2 * (handlers - execution.returned.length) + 1 - execution.running.toList.length
  | .acknowledging .. => 0

def taskLeft (handlers : NotificationKind → ℕ) (task : NotificationTask β δ η) : ℕ :=
  stageLeft (handlers task.kind) task.stage

/-- What a task costs, of whichever kind: its way through the task queue and all its statements. -/
def taskCost (handlers : NotificationKind → ℕ) : ℕ := 2 * (handlers .error + handlers .success) + 4

/-- What is left of a delivery until it is a task. -/
def handOverLeft (cost : ℕ) (delivery : Notified β) : ℕ := if delivery.task.isNone then cost + 1 else 0

def queueLeft (cost : ℕ) (queue : NotificationQueue β η) : ℕ :=
  queue.broker.ready.length * (cost + 2) + total (handOverLeft cost) queue.deliveries

def queuesLeft (cost : ℕ) (dispatcher : JobQueueDispatcher β δ η) : ℕ :=
  queueLeft cost dispatcher.errors + queueLeft cost dispatcher.successes

def workload (dispatcher : JobQueueDispatcher β δ η) : ℕ :=
  dispatcher.initializing.length + queuesLeft (taskCost dispatcher.handlerCount) dispatcher +
    dispatcher.workers.workLeft (taskLeft dispatcher.handlerCount) (taskCost dispatcher.handlerCount)

/-- A statement or a turn leaves a task less to do. -/
theorem Work.stageLeft_lt {task : ℕ} {job : NotificationTask β δ η} {stage : Stage δ η}
    (change : Work fromJson dispatcher task job action stage)
    (follows : ∀ execution, job.stage.execution = some execution →
      execution.Follows (dispatcher.queue job.kind).handlers) :
    stageLeft (dispatcher.handlerCount job.kind) stage <
      stageLeft (dispatcher.handlerCount job.kind) job.stage := by
  cases change with
  | decode known decoded =>
    simp only [known, stageLeft, HandlerPool.execute, List.length_nil, Option.toList_none]
    omega
  | decodeThrows known thrown =>
    simp only [known, stageLeft]
    omega
  | done known idle turn | modified known idle turn =>
    simp only [known, stageLeft, idle, Option.toList_none, List.length_nil]
    omega
  | handle known idle turn =>
    simp only [known, stageLeft, idle, Option.toList_none, Option.toList_some, List.length_nil,
      List.length_singleton]
    omega
  | handlerReturns known inside =>
    obtain ⟨handler, running⟩ := Option.isSome_iff_exists.mp inside
    have follows := follows _ (by rw [known]; rfl)
    have called := follows.called.length_le
    have registered := follows.registered.length_le
    simp only [running, Option.toList_some, List.length_append, List.length_singleton] at called
    simp only [known, stageLeft, Execution.finishHandler, running, Option.toList_some, Option.toList_none,
      List.length_append, List.length_singleton, List.length_nil, handlerCount]
    omega
  | handlerThrows known inside =>
    obtain ⟨handler, running⟩ := Option.isSome_iff_exists.mp inside
    have follows := follows _ (by rw [known]; rfl)
    have called := follows.called.length_le
    have registered := follows.registered.length_le
    simp only [running, Option.toList_some, List.length_append, List.length_singleton] at called
    simp only [known, stageLeft, running, Option.toList_some, List.length_singleton, handlerCount]
    omega

private theorem taskLeft_lt_taskCost (handlers : NotificationKind → ℕ) (task : NotificationTask β δ η) :
    taskLeft handlers task + 1 < taskCost handlers := by
  have each : handlers task.kind ≤ handlers .error + handlers .success := by
    cases task.kind <;> simp
  unfold taskLeft taskCost
  cases stage : task.stage with
  | decoding =>
    simp only [stageLeft]
    omega
  | executing notification execution =>
    simp only [stageLeft]
    omega
  | acknowledging execution exception =>
    simp only [stageLeft]
    omega

/-- An assignment to one of the queues counts by that queue alone. -/
theorem queuesLeft_setQueue {source : JobQueueDispatcher β δ η} (cost : ℕ)
    (same : ∀ kind, source.queue kind = dispatcher.queue kind) :
    queuesLeft cost (source.setQueue kind later) + queueLeft cost (dispatcher.queue kind) =
      queuesLeft cost dispatcher + queueLeft cost later := by
  have errors : source.errors = dispatcher.errors := same .error
  have successes : source.successes = dispatcher.successes := same .success
  cases kind with
  | error =>
    simp only [queuesLeft, setQueue, JobQueueDispatcher.queue, successes]
    omega
  | success =>
    simp only [queuesLeft, setQueue, JobQueueDispatcher.queue, errors]
    omega

private theorem handlerCount_setQueue {source : JobQueueDispatcher β δ η}
    (same : ∀ kind, source.queue kind = dispatcher.queue kind)
    (handlers : later.handlers = (dispatcher.queue kind).handlers) :
    (source.setQueue kind later).handlerCount = dispatcher.handlerCount := by
  funext other
  rw [handlerCount, handlerCount, queue_setQueue]
  split
  · next here => subst here; rw [handlers]
  · rw [same]

private theorem queueLeft_deliver (cost : ℕ) {position tag : ℕ} {broker : Broker Unit β} {body : β}
    (handed : queue.broker.deliver position tag () = some (broker, body)) :
    queueLeft cost { queue with broker, deliveries := queue.deliveries ++ [{ body }] } + 1 =
      queueLeft cost queue := by
  obtain ⟨read, rfl⟩ := Broker.deliver_eq_some.mp handed
  obtain ⟨inside, -⟩ := List.getElem?_eq_some_iff.mp read
  obtain ⟨others, count⟩ := Nat.exists_eq_add_of_lt (Nat.zero_lt_of_lt inside)
  have fresh : handOverLeft cost { body } = cost + 1 := rfl
  have shorter : (queue.broker.ready.eraseIdx position).length = others := by
    rw [List.length_eraseIdx_of_lt inside]
    omega
  have product : (0 + others + 1) * (cost + 2) = others * (cost + 2) + (cost + 2) := by
    rw [Nat.zero_add, Nat.succ_mul]
  simp only [queueLeft, total_alloc, fresh, shorter, count, product]
  omega

private theorem queueLeft_set (cost : ℕ) (after : Notified β)
    (read : queue.deliveries[ref]? = some delivery) :
    queueLeft cost { queue with deliveries := queue.deliveries.set ref after } + handOverLeft cost delivery =
      queueLeft cost queue + handOverLeft cost after := by
  have sum := total_set (handOverLeft cost) after read
  simp only [queueLeft]
  omega

/-- A delivery that is not a task yet counts for more than the task it becomes. -/
theorem handOver_lt (rank : NotificationTask β δ η → ℕ) (cost : ℕ) {job : NotificationTask β δ η} {task : ℕ}
    {workers more : ThreadPool (NotificationTask β δ η)} (read : queue.deliveries[ref]? = some delivery)
    (fresh : delivery.task = none) (submitted : workers.submit job = some (more, task)) :
    queueLeft cost { queue with deliveries := queue.deliveries.set ref { delivery with task := some task } } +
        more.workLeft rank cost < queueLeft cost queue + workers.workLeft rank cost := by
  have sum := queueLeft_set cost { delivery with task := some task } read
  have work : more.workLeft rank cost = workers.workLeft rank cost + cost := workLeft_submit submitted
  have waiting : handOverLeft cost delivery = cost + 1 := by
    rw [handOverLeft, fresh]
    rfl
  have done : handOverLeft cost { delivery with task := some task } = 0 := rfl
  omega

private theorem queueLeft_basicAck (cost : ℕ) (queue : NotificationQueue β η) (ref : DeliveryRef) :
    queueLeft cost (queue.basicAck ref) = queueLeft cost queue := by
  have same : (queue.deliveries.modify ref fun delivery => { delivery with acks := delivery.acks + 1 }).map
      (handOverLeft cost) = queue.deliveries.map (handOverLeft cost) := map_modify_of_same fun _ => rfl
  unfold queueLeft total NotificationQueue.basicAck
  rw [same]
  rfl

/-- A step that keeps the handlers makes the workload less if it does so for the constructor, the queues and
the workers together. -/
theorem workload_lt (handlers : next.handlerCount = dispatcher.handlerCount)
    (less : next.initializing.length + queuesLeft (taskCost dispatcher.handlerCount) next +
        next.workers.workLeft (taskLeft dispatcher.handlerCount) (taskCost dispatcher.handlerCount) <
      dispatcher.initializing.length + queuesLeft (taskCost dispatcher.handlerCount) dispatcher +
        dispatcher.workers.workLeft (taskLeft dispatcher.handlerCount) (taskCost dispatcher.handlerCount)) :
    next.workload < dispatcher.workload := by
  rw [workload, workload, handlers]
  exact less

/-- An assignment to one of the queues, with what happens to the constructor and the workers. -/
theorem setQueue_workload {source : JobQueueDispatcher β δ η}
    (same : ∀ kind, source.queue kind = dispatcher.queue kind)
    (handlers : later.handlers = (dispatcher.queue kind).handlers)
    (less : source.initializing.length + queueLeft (taskCost dispatcher.handlerCount) later +
        source.workers.workLeft (taskLeft dispatcher.handlerCount) (taskCost dispatcher.handlerCount) <
      dispatcher.initializing.length + queueLeft (taskCost dispatcher.handlerCount) (dispatcher.queue kind) +
        dispatcher.workers.workLeft (taskLeft dispatcher.handlerCount) (taskCost dispatcher.handlerCount)) :
    (source.setQueue kind later).workload < dispatcher.workload := by
  apply workload_lt (handlerCount_setQueue same handlers)
  have sum : queuesLeft (taskCost dispatcher.handlerCount) (source.setQueue kind later) +
      queueLeft (taskCost dispatcher.handlerCount) (dispatcher.queue kind) = _ := queuesLeft_setQueue _ same
  rw [setQueue_initializing, setQueue_workers]
  omega

private theorem withWorkers_workload {workers : ThreadPool (NotificationTask β δ η)}
    (less : workers.workLeft (taskLeft dispatcher.handlerCount) (taskCost dispatcher.handlerCount) <
      dispatcher.workers.workLeft (taskLeft dispatcher.handlerCount) (taskCost dispatcher.handlerCount)) :
    (dispatcher.withWorkers workers).workload < dispatcher.workload := by
  have handlers : (dispatcher.withWorkers workers).handlerCount = dispatcher.handlerCount := by
    funext kind
    rw [handlerCount, withWorkers_queue, handlerCount]
  exact workload_lt handlers (Nat.add_lt_add_left less _)

private theorem step_workload (working : Working dispatcher) (own : action.isOwn = true)
    (stepped : step fromJson dispatcher action = some next) : next.workload < dispatcher.workload := by
  cases step_spec stepped with
  | publish | register | close => contradiction
  | initCallbacks kind rest first same =>
    subst same
    refine setQueue_workload (fun other => by cases other <;> rfl) rfl ?_
    rw [first, List.length_cons]
    change rest.length + queueLeft _ (dispatcher.queue kind) + dispatcher.workers.workLeft _ _ < _
    omega
  | deliver kind position broker body opened handed same =>
    subst same
    refine setQueue_workload (fun _ => rfl) rfl ?_
    have less := Nat.lt_of_succ_le (Nat.le_of_eq (queueLeft_deliver (taskCost dispatcher.handlerCount) handed))
    exact Nat.add_lt_add_right (Nat.add_lt_add_left less _) _
  | callback kind ref delivery read fresh same =>
    subst same
    refine setQueue_workload (fun _ => withWorkers_queue ..) rfl ?_
    have submitted : dispatcher.workers.submit { kind, delivery := ref, body := delivery.body } = some _ :=
      submit_eq_some.mpr ⟨working.staffed.accepting, rfl, rfl⟩
    have less := handOver_lt (taskLeft dispatcher.handlerCount) (taskCost dispatcher.handlerCount) read fresh
      submitted
    rw [Nat.add_assoc, Nat.add_assoc]
    exact Nat.add_lt_add_left less _
  | takeTask task rest same =>
    obtain ⟨workers, taken, rfl⟩ := Option.map_eq_some_iff.mp stepped
    exact withWorkers_workload (workLeft_take (Nat.succ_pos _) (taskLeft_lt_taskCost _) taken)
  | work action task job stage active change same =>
    subst same
    obtain ⟨found, read, running, rfl⟩ := running_eq_some.mp active
    obtain ⟨delivery, -, -, -, recorded⟩ := working.coherent.linked task found read
    exact withWorkers_workload (workLeft_advance read running (change.stageLeft_lt recorded.follows))
  | ack task job execution exception active stage opened same =>
    subst same
    obtain ⟨found, read, running, rfl⟩ := running_eq_some.mp active
    refine setQueue_workload (fun _ => withWorkers_queue ..) rfl ?_
    rw [queueLeft_basicAck]
    exact Nat.add_lt_add_left (workLeft_finish read running) _
  | ackThrows task job execution exception active stage closed same =>
    subst same
    obtain ⟨found, read, running, rfl⟩ := running_eq_some.mp active
    exact withWorkers_workload (workLeft_finish read running)

theorem runsDown (fromJson : NotificationKind → β → Except Throwable δ) :
    RunsDown (step fromJson) (·.isOwn = true) (Working : JobQueueDispatcher β δ η → Prop) workload where
  kept _ _ _ working _ stepped := working_step working stepped
  falls _ _ _ working own stepped := step_workload working own stepped

end JobQueueDispatcher

end RabbitJobQueue.Model
