import RabbitJobQueue.Proofs.JobQueueSchedule
import RabbitJobQueue.Proofs.NotificationCustody

/-! # What is made of a message

What a callback, a job or a notification's task holds is what its message decodes to, whichever statements
have been executed since. So whatever is known of the messages at the broker is known of what the handlers
are given.
-/

namespace RabbitJobQueue.Model

open Machine ThreadPool

namespace Phase

variable {δ : Type}

/-- What the callback has decoded. -/
def dispatch : Phase δ → Option δ
  | .decoded dispatch | .awaiting dispatch | .timedOut dispatch | .cancelled dispatch
  | .ackTried dispatch => some dispatch
  | _ => none

/-- What the callback has thrown. -/
def thrown : Phase δ → Option Throwable
  | .threw exception | .failed exception => some exception
  | _ => none

end Phase

namespace JobQueue

variable {ε β δ η : Type} {fromJson : β → Except Throwable δ} {queue next : JobQueue ε β δ η}
  {ref : DeliveryRef} {delivery after : Delivery β δ} {action : JobQueueAction β η}

/-- What a callback throws once its message is decoded. -/
def afterDecoding : List Throwable :=
  [.rejectedExecution, .execution, .cancellation, .interrupted, .alreadyClosed]

/-- What a delivery holds is what its message decodes to. -/
structure Faithful (fromJson : β → Except Throwable δ) (delivery : Delivery β δ) : Prop where
  phase : ∀ dispatch, delivery.phase.dispatch = some dispatch → fromJson delivery.body = .ok dispatch
  timeoutCalls : ∀ dispatch ∈ delivery.timeoutCalls, fromJson delivery.body = .ok dispatch
  thrown : ∀ exception, delivery.phase.thrown = some exception →
    fromJson delivery.body = .error exception ∨ exception ∈ afterDecoding

private theorem Advance.faithful (advance : Advance fromJson queue next ref delivery after)
    (faithful : Faithful fromJson delivery) : Faithful fromJson after := by
  obtain ⟨phase, timeoutCalls, thrown⟩ := faithful
  cases advance with
  | decode accepted decoded =>
    refine ⟨?_, timeoutCalls, fun _ impossible => by contradiction⟩
    rintro _ ⟨⟩
    exact decoded
  | decodeThrows accepted failed =>
    refine ⟨fun _ impossible => by contradiction, timeoutCalls, ?_⟩
    rintro _ ⟨⟩
    exact .inl failed
  | submit here | timeOut here | cancel here | lateAck here | lateAckThrows here =>
    refine ⟨?_, timeoutCalls, fun _ impossible => by contradiction⟩
    rintro _ ⟨⟩
    exact phase _ (by rw [here]; rfl)
  | reject | jobThrew | jobCancelled | interrupt | ackThrows =>
    refine ⟨fun _ impossible => by contradiction, timeoutCalls, ?_⟩
    rintro _ ⟨⟩
    exact .inr (by simp [afterDecoding])
  | handleException here =>
    refine ⟨fun _ impossible => by contradiction, timeoutCalls, ?_⟩
    rintro _ ⟨⟩
    exact thrown _ (by rw [here]; rfl)
  | callTimeoutFn here =>
    refine ⟨fun _ impossible => by contradiction, fun other member => ?_, fun _ impossible => by contradiction⟩
    rcases List.mem_append.mp member with old | new
    · exact timeoutCalls other old
    · rw [List.mem_singleton.mp new]
      exact phase _ (by rw [here]; rfl)
  | accept | refuse | jobReturned | ack =>
    exact ⟨fun _ impossible => by contradiction, timeoutCalls, fun _ impossible => by contradiction⟩

/-- What a task is for: its delivery, and the dispatch the handlers are given. -/
def purpose (task : PoolTask (Job δ η)) : DeliveryRef × δ := (task.payload.delivery, task.payload.dispatch)

/-- A step leaves every task its purpose, and adds one at most, for what a callback has decoded. -/
theorem ThreadStep.purposes {forced : Prop} {threads : ThreadPool (Job δ η)}
    (step : ThreadStep forced queue threads) : threads.tasks.map purpose = queue.tasks.map purpose ∨
      ∃ ref delivery dispatch, queue.deliveries[ref]? = some delivery ∧ delivery.phase = .decoded dispatch ∧
        threads.tasks.map purpose = queue.tasks.map purpose ++ [(ref, dispatch)] := by
  cases step with
  | winds winds => cases winds <;> exact .inl rfl
  | submitted ref delivery dispatch task read phase submitted =>
    obtain ⟨-, -, rfl⟩ := submit_eq_some.mp submitted
    exact .inr ⟨ref, delivery, dispatch, read, phase, List.map_append⟩
  | cancelled task => exact .inl (map_modify_of_same fun task => by simp [purpose])
  | taken taken =>
    obtain ⟨task, rest, -, -, rfl⟩ := take_eq_some.mp taken
    refine .inl (map_modify_of_same fun task => ?_)
    rw [PoolTask.take]
    split <;> rfl
  | advanced task execution => exact .inl (map_modify_of_same fun _ => rfl)
  | finished task answer settles => exact .inl (map_modify_of_same fun task => by simp [purpose])

/-- Deliveries and tasks hold what their messages decode to. -/
structure Carried (fromJson : β → Except Throwable δ) (queue : JobQueue ε β δ η) : Prop where
  deliveries : ∀ delivery ∈ queue.deliveries, Faithful fromJson delivery
  tasks : ∀ task ∈ queue.tasks.map purpose, ∃ delivery,
    queue.deliveries[task.1]? = some delivery ∧ fromJson delivery.body = .ok task.2

theorem carried_starting (pool : JobQueueExecutorPool ε (Job δ η)) (waiting : List β)
    (idle : pool.threads.tasks = []) : Carried fromJson (starting pool waiting) := by
  refine ⟨by simp [starting], fun task member => ?_⟩
  change task ∈ pool.threads.tasks.map purpose at member
  rw [idle] at member
  contradiction

theorem carried_step [ExecutorFailureEnforcer ε] (carried : Carried fromJson queue)
    (stepped : step fromJson queue action = some next) : Carried fromJson next := by
  have deliveries := step_deliveries stepped
  refine ⟨fun delivery member => ?_, fun task member => ?_⟩
  · obtain ⟨ref, read⟩ := List.mem_iff_getElem?.mp member
    cases deliveries.origin read with
    | same old => exact carried.deliveries delivery (List.mem_of_getElem? old)
    | advanced before asked known advance =>
      exact advance.faithful (carried.deliveries before (List.mem_of_getElem? known))
    | delivered ex body live fresh =>
      subst fresh
      exact ⟨fun _ impossible => by contradiction, by simp, fun _ impossible => by contradiction⟩
  · have known : ∃ delivery, queue.deliveries[task.1]? = some delivery ∧
        fromJson delivery.body = .ok task.2 := by
      rcases (step_threadStep stepped).purposes with same | ⟨ref, delivery, dispatch, read, phase, more⟩
      · exact carried.tasks task (same ▸ member)
      · rw [tasks, more] at member
        rcases List.mem_append.mp member with old | new
        · exact carried.tasks task old
        · rw [List.mem_singleton.mp new]
          have faithful := carried.deliveries delivery (List.mem_of_getElem? read)
          exact ⟨delivery, read, faithful.phase dispatch (by rw [phase]; rfl)⟩
    obtain ⟨delivery, read, decoded⟩ := known
    obtain ⟨after, readAfter, same, -⟩ := deliveries.kept read
    exact ⟨after, readAfter, same.body ▸ decoded⟩

end JobQueue

namespace JobQueueDispatcher

variable {β δ η : Type} {fromJson : NotificationKind → β → Except Throwable δ}
  {dispatcher next : JobQueueDispatcher β δ η} {action : DispatcherAction β η}

/-- What a task holds is what its message decodes to; it has been at the handlers unless there is no such
thing. -/
structure Faithful (fromJson : NotificationKind → β → Except Throwable δ)
    (task : NotificationTask β δ η) : Prop where
  executing : ∀ notification execution, task.stage = .executing notification execution →
    fromJson task.kind task.body = .ok notification
  unhandled : ∀ exception, task.stage = .acknowledging none exception →
    ∃ thrown, fromJson task.kind task.body = .error thrown

private theorem Work.faithful {task : ℕ} {job : NotificationTask β δ η} {stage : Stage δ η}
    (work : Work fromJson dispatcher task job action stage) (faithful : Faithful fromJson job) :
    Faithful fromJson { job with stage } := by
  cases work with
  | decode here decoded =>
    refine ⟨?_, fun _ impossible => by contradiction⟩
    rintro _ _ ⟨⟩
    exact decoded
  | decodeThrows here failed => exact ⟨fun _ _ impossible => by contradiction, fun _ _ => ⟨_, failed⟩⟩
  | handle here | handlerReturns here =>
    refine ⟨?_, fun _ impossible => by contradiction⟩
    rintro _ _ ⟨⟩
    exact faithful.executing _ _ here
  | done | modified | handlerThrows =>
    exact ⟨fun _ _ impossible => by contradiction, fun _ impossible => by cases impossible⟩

private theorem TaskChange.faithful {task : ℕ} {before after : PoolTask (NotificationTask β δ η)}
    (change : TaskChange fromJson dispatcher action task before after)
    (faithful : Faithful fromJson before.payload) : Faithful fromJson after.payload := by
  cases change with
  | take => rwa [PoolTask.take_id_payload]
  | work stage running work => exact work.faithful faithful
  | finish answer running => rwa [PoolTask.finish_payload]

/-- Tasks hold what their messages decode to, and the broker knows all messages that have been delivered. -/
structure Carried (fromJson : NotificationKind → β → Except Throwable δ)
    (dispatcher : JobQueueDispatcher β δ η) : Prop where
  tasks : ∀ task ∈ dispatcher.tasks, Faithful fromJson task.payload
  known : ∀ kind, ∀ delivery ∈ (dispatcher.queue kind).deliveries,
    delivery.body ∈ (dispatcher.queue kind).broker.inventory

theorem carried_starting (workers : ℕ) (waiting : NotificationKind → List β) :
    Carried fromJson (starting (δ := δ) (η := η) workers waiting) where
  tasks := by simp [starting, tasks]
  known kind delivery member := by cases kind <;> contradiction

theorem carried_step (carried : Carried fromJson dispatcher)
    (stepped : step fromJson dispatcher action = some next) : Carried fromJson next := by
  refine ⟨fun task member => ?_, fun kind delivery member => ?_⟩
  · obtain ⟨place, read⟩ := List.mem_iff_getElem?.mp member
    cases (step_tasks stepped).origin read with
    | same old => exact carried.tasks task (List.mem_of_getElem? old)
    | submitted kind ref body fresh =>
      subst fresh
      exact ⟨fun _ _ impossible => by contradiction, fun _ impossible => by contradiction⟩
    | changed before known change => exact change.faithful (carried.tasks before (List.mem_of_getElem? known))
  · have grown : (dispatcher.queue kind).broker.inventory ⊆ (next.queue kind).broker.inventory := by
      intro body old
      exact (inventory_step stepped kind).mem_iff.mpr (List.mem_append_right _ old)
    obtain ⟨ref, read⟩ := List.mem_iff_getElem?.mp member
    cases step_notified stepped read with
    | same old => exact grown (carried.known kind delivery (List.mem_of_getElem? old))
    | delivered body waited fresh =>
      subst fresh
      exact grown (List.mem_append_left _ waited)
    | handedOver before known fresh same =>
      subst same
      exact grown (carried.known kind before (List.mem_of_getElem? known))
    | acked before task job execution exception answer known active sameKind own stage opened tasks same =>
      subst same
      exact grown (carried.known kind before (List.mem_of_getElem? known))

end JobQueueDispatcher

end RabbitJobQueue.Model
