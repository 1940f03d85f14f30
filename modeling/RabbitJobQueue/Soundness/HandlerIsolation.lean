import RabbitJobQueue.Soundness.SilentConsumption

/-! # Whether one handler can keep a notification from another

`execute` calls the handlers one after the other and lets the first exception out; the notification is
acknowledged in the `finally` block around it. So every handler sees every notification exactly as long
as no handler but the last one throws, and no handler is registered while others are still to be called.
-/

namespace RabbitJobQueue.Soundness.HandlerIsolation

open Machine Model Model.JobQueueDispatcher SilentNotifications

variable {β δ η : Type} {fromJson : NotificationKind → β → Except Throwable δ}
  {dispatcher next : JobQueueDispatcher β δ η} {action : DispatcherAction β η}
  {actions : List (DispatcherAction β η)}

/-- The handlers called are those that were registered when the loop began, each once and in the order
of their registration. -/
def Invoked (_ : HandlerPool η) (stage : Stage δ η) : Prop :=
  ∃ execution, stage.execution = some execution ∧
    execution.returned ++ execution.running.toList = execution.registered

/-- What has been acknowledged has been acknowledged once, after all its handlers have been called; and
a task that has ended on an open channel has acknowledged. -/
structure Isolated (dispatcher : JobQueueDispatcher β δ η) : Prop where
  served : ∀ (kind : NotificationKind) (ref : DeliveryRef) (delivery : Notified β),
    (dispatcher.queue kind).deliveries[ref]? = some delivery → delivery.acks ≠ 0 →
    delivery.acks = 1 ∧ Shown Invoked dispatcher kind delivery
  ended : ∀ (kind : NotificationKind) (ref : DeliveryRef) (delivery : Notified β) (task : ℕ)
    (found : PoolTask (NotificationTask β δ η)),
    (dispatcher.queue kind).deliveries[ref]? = some delivery → delivery.task = some task →
    dispatcher.tasks[task]? = some found → found.state = .ended →
    (dispatcher.queue kind).isOpen = true → delivery.acks = 1

/-- Every step that leads to the next acknowledgement is isolated, too. -/
def StaysIsolated (fromJson : NotificationKind → β → Except Throwable δ)
    (dispatcher : JobQueueDispatcher β δ η) : Prop :=
  Isolated dispatcher ∧ ∀ (task : ℕ) (next : JobQueueDispatcher β δ η),
    step fromJson dispatcher (.work task) = some next → Isolated next

/-- On an open channel, a handler that throws by this step is the last of its loop; and if the step is a
turn of a loop with handlers still to be called, none has been registered since the loop began. -/
def LosesNone (dispatcher : JobQueueDispatcher β δ η) (action : DispatcherAction β η) : Prop :=
  ∀ (task : ℕ) (job : NotificationTask β δ η) (notification : δ) (execution : Execution η),
    dispatcher.running task = some job → job.stage = .executing notification execution →
    (dispatcher.queue job.kind).isOpen = true →
    (∀ exception, action = .handlerEnds task (some exception) → execution.running.isSome = true →
      execution.returned.length + 1 = execution.registered.length) ∧
    (action = .work task → execution.running = none →
      execution.returned.length < execution.registered.length →
      (dispatcher.queue job.kind).handlers.handlers = execution.registered)

/-- For a coherent dispatcher, only the handlers are in question. -/
theorem isolated_iff (coherent : Coherent dispatcher) :
    Isolated dispatcher ↔ AckedShown Invoked dispatcher := by
  constructor
  · intro isolated kind ref delivery read acked
    exact (isolated.served kind ref delivery read acked).2
  · intro shown
    constructor
    · intro kind ref delivery read acked
      obtain ⟨task, found, own, known, invoked⟩ := shown kind ref delivery read acked
      exact ⟨(ended_of_acked coherent read acked own known).2, task, found, own, known, invoked⟩
    · intro kind ref delivery task found read own known ended opened
      rcases coherent.handed kind ref delivery read with ⟨none, -⟩ | ⟨_, other, same, readOther, rfl, rfl⟩
      · rw [own] at none
        contradiction
      · cases own.symm.trans same
        cases known.symm.trans readOther
        obtain ⟨one, readOne, _, _, recorded⟩ := coherent.linked task found known
        cases read.symm.trans readOne
        have progress := recorded.progress
        rw [ended] at progress
        apply progress.2.1.resolve_right
        intro unacked
        rw [opened] at unacked
        exact absurd unacked.2 (by decide)

/-- A handler that is the last one, or a loop that is through, leaves nobody out. -/
theorem invoked_of_length {handlers : HandlerPool η} {execution : Execution η} {stage : Stage δ η}
    (follows : execution.Follows handlers) (carried : stage.execution = some execution)
    (all : execution.registered.length ≤ (execution.returned ++ execution.running.toList).length) :
    Invoked handlers stage :=
  ⟨execution, carried, follows.called.eq_of_length (Nat.le_antisymm follows.called.length_le all)⟩

/-- With handlers still to be called, the loop ends only when the list has been modified. -/
theorem turn_eq_threw_iff {handlers : HandlerPool η} {execution : Execution η}
    (follows : execution.Follows handlers) (left : execution.returned.length < execution.registered.length) :
    (∀ handler, handlers.turn execution ≠ .handle handler) ↔ handlers.handlers ≠ execution.registered := by
  have grown := follows.registered.length_le
  have inside : execution.returned.length < handlers.handlers.length := Nat.lt_of_lt_of_le left grown
  rw [HandlerPool.turn]
  rw [if_neg (Nat.ne_of_lt inside), List.getElem?_eq_getElem inside]
  constructor
  · rintro none same
    rw [if_neg (by simp [same])] at none
    exact none _ rfl
  · intro modified handler
    rw [if_pos]
    · simp
    · intro same
      exact modified (follows.registered.eq_of_length same.symm).symm

private theorem enters_invoked (coherent : Coherent dispatcher)
    (wellFormed : AllWellFormed fromJson dispatcher)
    (losesNone : LosesNone dispatcher action) : Enters Invoked fromJson dispatcher action := by
  intro task before execution exception read running work opened
  obtain ⟨delivery, known, _, body, recorded⟩ := coherent.linked task before read
  have active := running_eq_some.mpr ⟨before, read, running, rfl⟩
  cases work with
  | decodeThrows inside thrown =>
    obtain ⟨notification, decoded⟩ := wellFormed.notified _ delivery (List.mem_of_getElem? known)
    rw [body, thrown] at decoded
    contradiction
  | done inside idle turn =>
    have follows := recorded.follows _ (by rw [inside]; rfl)
    obtain ⟨-, all⟩ := follows.complete idle turn
    exact invoked_of_length follows rfl (by rw [List.length_append, all]; exact Nat.le_add_right _ _)
  | modified inside idle turn =>
    have follows := recorded.follows _ (by rw [inside]; rfl)
    apply invoked_of_length follows rfl
    by_contra left
    rw [idle, Option.toList_none, List.append_nil, Nat.not_le] at left
    have same := (losesNone task _ _ _ active inside opened).2 rfl idle left
    exact (turn_eq_threw_iff follows left).mp (by simp [turn]) same
  | handlerThrows inside called =>
    have follows := recorded.follows _ (by rw [inside]; rfl)
    have last := (losesNone task _ _ _ active inside opened).1 _ rfl called
    obtain ⟨handler, same⟩ := Option.isSome_iff_exists.mp called
    exact invoked_of_length follows rfl (by rw [same]; simpa using Nat.le_of_eq last.symm)

private theorem unbacked_of_not_losesNone (coherent : Coherent dispatcher)
    (stepped : step fromJson dispatcher action = some next) (loses : ¬ LosesNone dispatcher action) :
    Unbacked Invoked next := by
  rw [LosesNone] at loses
  push Not at loses
  obtain ⟨task, job, notification, execution, active, stage, opened, lost⟩ := loses
  obtain ⟨before, known, running, rfl⟩ := running_eq_some.mp active
  obtain ⟨_, _, _, _, recorded⟩ := coherent.linked task before known
  have follows := recorded.follows execution (by rw [stage]; rfl)
  by_cases throws : ∃ exception, action = .handlerEnds task (some exception) ∧
      execution.running.isSome = true ∧ execution.returned.length + 1 ≠ execution.registered.length
  · obtain ⟨exception, rfl, called, others⟩ := throws
    obtain ⟨_, same, left⟩ := Option.bind_eq_some_iff.mp stepped
    cases active.symm.trans same
    rw [handlerEnds] at left
    rw [stage] at left
    dsimp only at left
    rw [if_pos called] at left
    cases left
    apply unbacked_setStage known running opened
    rintro ⟨_, carried, all⟩
    cases carried
    obtain ⟨handler, inside⟩ := Option.isSome_iff_exists.mp called
    apply others
    rw [← all, inside]
    simp
  · push Not at throws
    obtain ⟨rfl, idle, left, modified⟩ := lost throws
    have turn := (turn_eq_threw_iff follows left).mpr modified
    obtain ⟨exception, rfl⟩ := leaves_loop stepped active stage idle turn
    apply unbacked_setStage known running opened
    rintro ⟨_, carried, all⟩
    cases carried
    rw [← all, idle] at left
    simp at left

/-- In every state of a run the handlers are isolated, and stay so by the statements that come next, if
and only if no step of the run loses a handler that is still to be called. -/
theorem staysIsolated_iff_losesNone (workers : ℕ) (waiting : NotificationKind → List β)
    (waitingWellFormed : ∀ kind, ∀ body ∈ waiting kind, Decodes fromJson kind body)
    (publishedWellFormed : ∀ action ∈ actions, PublishesWellFormed fromJson action)
    (ran : run (step fromJson) (starting workers waiting) actions = some dispatcher) :
    (∀ before after reached, actions = before ++ after →
      run (step fromJson) (starting workers waiting) before = some reached →
      StaysIsolated fromJson reached) ↔
    Along (step fromJson) LosesNone (starting workers waiting) actions := by
  have rule := safe_iff (AllWellFormed fromJson) (fun _ _ _ _ => id) (fun _ _ _ => allWellFormed_step)
    (fun _ _ => enters_invoked) (fun _ _ _ => unbacked_of_not_losesNone)
    (allWellFormed_starting waitingWellFormed) publishedWellFormed ran
  rw [← rule]
  refine forall_congr' fun before => forall_congr' fun after => forall_congr' fun reached =>
    imp_congr_right fun _ => imp_congr_right fun toReached => ?_
  have coherent := coherent_of_run (coherent_starting workers waiting) toReached
  apply and_congr (isolated_iff coherent)
  refine forall_congr' fun task => forall_congr' fun next => imp_congr_right fun stepped => ?_
  exact isolated_iff (coherent_step coherent stepped)

/-- Two handlers; the first returns, and the last throws. -/
def lastThrows : List (DispatcherAction ℕ ℕ) :=
  [.initCallbacks, .initCallbacks, .onSuccess 7, .onSuccess 8] ++ SilentConsumption.notified ++
    [.work 0, .handlerEnds 0 none, .work 0, .handlerEnds 0 (some (.other "handler")), .work 0]

theorem staysIsolated_iff_losesNone_last : ∃ dispatcher : JobQueueDispatcher ℕ ℕ ℕ,
    dispatcher.successes.deliveries.map (·.acks) = [1] ∧
    ((∀ before after reached, lastThrows = before ++ after →
      run (step fun _ => .ok) (.starting 1 fun _ => [1]) before = some reached →
      StaysIsolated (fun _ => .ok) reached) ↔
    Along (step fun _ => .ok) LosesNone (.starting 1 fun _ => [1]) lastThrows) := by
  obtain ⟨dispatcher, ran, acked⟩ : ∃ dispatcher ∈ run (step fun _ => .ok) (.starting 1 fun _ => [1]) lastThrows,
    dispatcher.successes.deliveries.map (·.acks) = [1] := by decide +kernel
  refine ⟨dispatcher, acked, staysIsolated_iff_losesNone 1 (fun _ => [1]) (fun _ body _ => ⟨body, rfl⟩) ?_ ran⟩
  simp [lastThrows, SilentConsumption.notified, DispatcherAction.onSuccess, PublishesWellFormed]

/-- Two handlers, and the first throws: the notification is acknowledged and the second never called. -/
theorem second_handler_skipped :
    ¬ ∀ (events : List (DispatcherAction ℕ ℕ)) (dispatcher : JobQueueDispatcher ℕ ℕ ℕ),
      run (step fun _ => .ok) (.starting 1 fun _ => [1]) events = some dispatcher →
      Isolated dispatcher := by
  intro claim
  obtain ⟨-, task, found, own, read, execution, carried, all⟩ := (claim
    ([.initCallbacks, .initCallbacks, .onSuccess 7, .onSuccess 8] ++ SilentConsumption.notified ++
      [.work 0, .handlerEnds 0 (some (.other "handler")), .work 0]) _ rfl).served .success 0 _ rfl (by decide)
  cases own
  cases read
  cases carried
  contradiction

end RabbitJobQueue.Soundness.HandlerIsolation
