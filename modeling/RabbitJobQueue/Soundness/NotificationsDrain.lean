import RabbitJobQueue.Proofs.DispatcherWork

/-! # The notifications drain

Whatever has happened to a dispatcher, it comes to rest once nobody sends notifications, registers handlers
or closes its channels, and every handler it calls returns or throws: no order of its own steps is longer
than its workload. At rest the constructor has returned, every notification delivered has had its task,
which has ended, the broker holds none, and a queue whose channel is open is empty: every notification ever
sent to it has been acknowledged.
-/

namespace RabbitJobQueue.Soundness.NotificationsDrain

open Machine Model Model.JobQueueDispatcher ThreadPool

variable {β δ η : Type} {fromJson : NotificationKind → β → Except Throwable δ}
  {dispatcher next : JobQueueDispatcher β δ η} {kind : NotificationKind} {ref : DeliveryRef}
  {delivery : Notified β}

/-- Nothing the dispatcher can do by itself is enabled. -/
def AtRest (fromJson : NotificationKind → β → Except Throwable δ)
    (dispatcher : JobQueueDispatcher β δ η) : Prop :=
  Quiescent (step fromJson) (·.isOwn = true) dispatcher

private theorem constructed_of_atRest (rest : AtRest fromJson dispatcher) : dispatcher.initializing = [] := by
  have refused := rest .initCallbacks rfl
  unfold step at refused
  dsimp only at refused
  split at refused
  · next done => exact done
  · contradiction

/-- A task on a worker can always go on. -/
theorem idle_of_atRest (working : Working dispatcher) (rest : AtRest fromJson dispatcher) :
    dispatcher.workers.queue = [] ∧ dispatcher.workers.active = 0 := by
  rcases running_or_takes_or_idle working.staffed.positive id with
    ⟨task, found, read, active⟩ | ⟨workers, taken⟩ | idle
  · exfalso
    have running : dispatcher.running task = some found.payload := running_eq_some.mpr ⟨found, read, active, rfl⟩
    have worked : dispatcher.work fromJson task found.payload = none := by
      simpa [step, running] using rest (.work task) rfl
    have ended : dispatcher.handlerEnds task found.payload none = none := by
      simpa [step, running] using rest (.handlerEnds task none) rfl
    rw [work] at worked
    rw [handlerEnds] at ended
    cases stage : found.payload.stage with
    | decoding =>
      rw [stage] at worked
      dsimp only at worked
      split at worked <;> contradiction
    | executing notification execution =>
      rw [stage] at worked ended
      dsimp only at worked ended
      cases inside : execution.running with
      | none =>
        rw [inside, if_neg (by simp)] at worked
        split at worked <;> contradiction
      | some handler =>
        rw [inside, if_pos Option.isSome_some] at ended
        contradiction
    | acknowledging execution exception =>
      rw [stage] at worked
      dsimp only at worked
      split at worked <;> contradiction
  · have refused := rest .takeTask rfl
    simp [step, taken] at refused
  · exact idle

/-- Every notification that has been delivered is handed over, the first one first. -/
theorem handedOver_of_atRest (working : Working dispatcher) (rest : AtRest fromJson dispatcher)
    (read : (dispatcher.queue kind).deliveries[ref]? = some delivery) : delivery.task.isSome = true := by
  induction ref using Nat.strongRecOn generalizing delivery with
  | ind ref ih =>
    by_contra waiting
    have turn : (dispatcher.queue kind).isNext ref = true := by
      rw [NotificationQueue.isNext, List.all_eq_true]
      intro earlier member
      obtain ⟨other, known⟩ := List.mem_iff_getElem?.mp member
      rw [List.getElem?_take] at known
      split at known
      · next before => exact ih other before known
      · contradiction
    have refused := rest (.callback kind ref) rfl
    rw [Bool.not_eq_true, Option.isSome_eq_false_iff, Option.isNone_iff_eq_none] at waiting
    simp [step, callback, read, waiting, turn, submit, working.staffed.accepting] at refused

/-- Nothing is left of what has been delivered, and nothing at all where the channel is open. -/
structure Settled (published : List β) (dispatcher : JobQueueDispatcher β δ η) (kind : NotificationKind) :
    Prop where
  ended : ∀ delivery ∈ (dispatcher.queue kind).deliveries,
    ∃ (task : ℕ) (found : PoolTask (NotificationTask β δ η)),
    delivery.task = some task ∧ dispatcher.tasks[task]? = some found ∧ found.state = .ended
  acked : ∀ delivery ∈ (dispatcher.queue kind).deliveries,
    delivery.acks = 1 ∨ (delivery.acks = 0 ∧ (dispatcher.queue kind).isOpen = false)
  unacked : (dispatcher.queue kind).broker.unacked = []
  removed : (dispatcher.queue kind).isOpen = true → (dispatcher.queue kind).broker.ready = [] ∧
    ((dispatcher.queue kind).broker.removed.map (·.message)).Perm published

private theorem ended_of_atRest (working : Working dispatcher) (rest : AtRest fromJson dispatcher)
    (read : (dispatcher.queue kind).deliveries[ref]? = some delivery) :
    ∃ (task : ℕ) (found : PoolTask (NotificationTask β δ η)), delivery.task = some task ∧
      dispatcher.tasks[task]? = some found ∧ found.state = .ended ∧
      (delivery.acks = 1 ∨ (delivery.acks = 0 ∧ (dispatcher.queue kind).isOpen = false)) := by
  have handed := handedOver_of_atRest working rest read
  rcases working.coherent.handed kind ref delivery read with ⟨fresh, -⟩ | ⟨found, task, own, known, rfl, rfl⟩
  · rw [fresh] at handed
    contradiction
  · obtain ⟨queued, active⟩ := idle_of_atRest working rest
    obtain ⟨ended, -⟩ := working.staffed.scheduled.settled_of_idle working.staffed.accepting queued active known
    obtain ⟨delivery', read', -, -, recorded⟩ := working.coherent.linked task found known
    cases read.symm.trans read'
    have progress := recorded.progress
    rw [ended] at progress
    exact ⟨task, found, own, known, ended, progress.2.1⟩

private theorem settled_of_atRest {published : List β} (working : Working dispatcher)
    (rest : AtRest fromJson dispatcher)
    (inventory : (dispatcher.queue kind).broker.inventory.Perm published) :
    Settled published dispatcher kind := by
  have unacked : (dispatcher.queue kind).broker.unacked = [] := by
    apply List.eq_nil_iff_forall_not_mem.mpr
    intro held member
    obtain ⟨opened, delivery, read, none⟩ := working.holds kind held member
    obtain ⟨-, -, -, -, -, one | ⟨-, closed⟩⟩ := ended_of_atRest working rest read
    · rw [one] at none
      contradiction
    · rw [opened] at closed
      contradiction
  refine ⟨fun delivery member => ?_, fun delivery member => ?_, unacked, fun opened => ?_⟩
  · obtain ⟨ref, read⟩ := List.mem_iff_getElem?.mp member
    obtain ⟨task, found, own, known, ended, -⟩ := ended_of_atRest working rest read
    exact ⟨task, found, own, known, ended⟩
  · obtain ⟨ref, read⟩ := List.mem_iff_getElem?.mp member
    obtain ⟨-, -, -, -, -, acked⟩ := ended_of_atRest working rest read
    exact acked
  · have ready : (dispatcher.queue kind).broker.ready = [] := by
      cases ready : (dispatcher.queue kind).broker.ready with
      | nil => rfl
      | cons first later =>
        have refused := rest (.deliver kind 0) rfl
        simp [step, opened, Broker.deliver, ready] at refused
    refine ⟨ready, ?_⟩
    simpa [Broker.inventory, ready, unacked] using inventory

/-- The notifications of a kind that have been sent, in their order. -/
def notifications (kind : NotificationKind) (actions : List (DispatcherAction β η)) : List β :=
  actions.filterMap (sent kind)

theorem inventory_of_run {actions : List (DispatcherAction β η)}
    (ran : run (step fromJson) dispatcher actions = some next) (kind : NotificationKind) :
    (next.queue kind).broker.inventory.Perm
      ((dispatcher.queue kind).broker.inventory ++ notifications kind actions) := by
  induction actions generalizing dispatcher with
  | nil =>
    cases ran
    rw [notifications, List.filterMap_nil, List.append_nil]
  | cons action rest ih =>
    obtain ⟨middle, stepped, continued⟩ := run_cons_eq_some.mp ran
    have now := inventory_step stepped kind
    have later := ih continued
    calc
      (next.queue kind).broker.inventory.Perm
          ((middle.queue kind).broker.inventory ++ notifications kind rest) := later
      List.Perm _ (((sent kind action).toList ++ (dispatcher.queue kind).broker.inventory) ++
          notifications kind rest) := now.append_right _
      List.Perm _ (((dispatcher.queue kind).broker.inventory ++ (sent kind action).toList) ++
          notifications kind rest) := List.perm_append_comm.append_right _
      _ = (dispatcher.queue kind).broker.inventory ++ notifications kind (action :: rest) := by
        cases here : sent kind action <;> simp [notifications, here]

private theorem notifications_of_own {actions : List (DispatcherAction β η)}
    (own : ∀ action ∈ actions, action.isOwn = true) : notifications kind actions = [] := by
  apply List.filterMap_eq_nil_iff.mpr
  intro action member
  cases action with
  | publish other body =>
    have mine := own _ member
    contradiction
  | _ => rfl

/-- Left to itself, the dispatcher comes to rest, whatever the order of its steps, and is done with every
notification then. -/
theorem notifications_drain (workers : ℕ) (positive : 0 < workers)
    (fromJson : NotificationKind → β → Except Throwable δ) (waiting : NotificationKind → List β)
    (actions : List (DispatcherAction β η))
    (ran : run (step fromJson) (starting workers waiting) actions = some dispatcher) :
    (∀ more target, (∀ action ∈ more, action.isOwn = true) → run (step fromJson) dispatcher more = some target →
      more.length ≤ dispatcher.workload ∧
        (Quiescent (step fromJson) (·.isOwn = true) target → target.initializing = [] ∧
          ∀ kind, Settled (waiting kind ++ notifications kind actions) target kind)) ∧
      ∃ more target, (∀ action ∈ more, action.isOwn = true) ∧ run (step fromJson) dispatcher more = some target ∧
        Quiescent (step fromJson) (·.isOwn = true) target := by
  have working : Working dispatcher :=
    run_invariant (fun _ _ _ working stepped => working_step working stepped)
      (working_starting positive waiting) ran
  have down := runsDown (η := η) fromJson
  refine ⟨fun more target own continued => ⟨?_, fun quiescent => ?_⟩,
    down.exists_quiescent (fun _ => id) working⟩
  · have bound := down.length_le working own continued
    omega
  · have still := down.invariant_of_run working own continued
    refine ⟨constructed_of_atRest quiescent, fun kind => settled_of_atRest still quiescent ?_⟩
    have inventory := inventory_of_run (run_append_eq_some.mpr ⟨dispatcher, ran, continued⟩) kind
    rw [notifications, List.filterMap_append, ← notifications, ← notifications, notifications_of_own own,
      List.append_nil] at inventory
    cases kind <;> simpa [starting, JobQueueDispatcher.queue, Broker.inventory] using inventory

/-- A notification of either kind has been waiting, a handler is registered for each, and one more error is
published; the first error is on a thread, and the success in the queue. -/
def notifiedTwice : List (DispatcherAction ℕ ℕ) :=
  [.initCallbacks, .initCallbacks, .onError 5, .onSuccess 6, .publish .error 8, .deliver .error 0,
    .deliver .success 0, .callback .error 0, .callback .success 0, .takeTask, .work 0]

/-- All three are acknowledged in the end. -/
theorem notifications_drain_twice : ∃ dispatcher target : JobQueueDispatcher ℕ ℕ ℕ, ∃ more,
    run (step fun _ => .ok) (starting 1 fun _ => [7]) notifiedTwice = some dispatcher ∧
    run (step fun _ => .ok) dispatcher more = some target ∧ more.length ≤ dispatcher.workload ∧
    target.initializing = [] ∧
    Settled [7, 8] target .error ∧ Settled [7] target .success := by
  obtain ⟨dispatcher, ran⟩ : ∃ dispatcher,
      run (step fun _ => .ok) (starting 1 fun _ => [7]) notifiedTwice = some dispatcher := ⟨_, rfl⟩
  obtain ⟨bounded, more, target, own, continued, rest⟩ :=
    notifications_drain 1 (by decide) (fun _ => .ok) (fun _ => [7]) notifiedTwice ran
  obtain ⟨short, quiescent⟩ := bounded more target own continued
  obtain ⟨constructed, settled⟩ := quiescent rest
  exact ⟨dispatcher, target, more, ran, continued, short, constructed, settled .error, settled .success⟩

end RabbitJobQueue.Soundness.NotificationsDrain
