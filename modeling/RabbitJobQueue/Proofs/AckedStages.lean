import RabbitJobQueue.Proofs.NotificationHistory

/-! # What an acknowledgement stands for

A notification is acknowledged in the `finally` block of its task, so whatever is to be true of an
acknowledged notification has to be true already of every task that enters that block. A demand on tasks
in the block is a predicate on their stage; the rule below turns it into a condition on single steps
that is met exactly by the runs in which all acknowledgements satisfy the demand.
-/

namespace RabbitJobQueue.Model.JobQueueDispatcher

open Machine

variable {β δ η : Type} {fromJson : NotificationKind → β → Except Throwable δ}
  {dispatcher next : JobQueueDispatcher β δ η} {action : DispatcherAction β η}
  {kind : NotificationKind} {ref : DeliveryRef} {delivery : Notified β} {task : ℕ}
  {actions : List (DispatcherAction β η)} {good : HandlerPool η → Stage δ η → Prop}

/-- Registering more handlers does not spoil what has been achieved. -/
def Lasting (good : HandlerPool η → Stage δ η → Prop) : Prop :=
  ∀ (handlers more : HandlerPool η) (stage : Stage δ η), handlers.handlers <+: more.handlers →
    good handlers stage → good more stage

/-- The task of the notification is at a good stage. -/
def Shown (good : HandlerPool η → Stage δ η → Prop) (dispatcher : JobQueueDispatcher β δ η)
    (kind : NotificationKind) (delivery : Notified β) : Prop :=
  ∃ task found, delivery.task = some task ∧ dispatcher.tasks[task]? = some found ∧
    good (dispatcher.queue kind).handlers found.payload.stage

/-- Every notification that has been acknowledged shows what it should. -/
def AckedShown (good : HandlerPool η → Stage δ η → Prop) (dispatcher : JobQueueDispatcher β δ η) :
    Prop :=
  ∀ (kind : NotificationKind) (ref : DeliveryRef) (delivery : Notified β),
    (dispatcher.queue kind).deliveries[ref]? = some delivery → delivery.acks ≠ 0 →
    Shown good dispatcher kind delivery

/-- What has been acknowledged, or is about to be, shows what it should. -/
structure Backed (good : HandlerPool η → Stage δ η → Prop) (dispatcher : JobQueueDispatcher β δ η) :
    Prop where
  acknowledged : AckedShown good dispatcher
  acknowledging : ∀ (task : ℕ) (found : PoolTask (NotificationTask β δ η))
    (execution : Option (Execution η)) (exception : Option Throwable),
    dispatcher.tasks[task]? = some found → found.state = .running →
    found.payload.stage = .acknowledging execution exception →
    (dispatcher.queue found.payload.kind).isOpen = true →
    good (dispatcher.queue found.payload.kind).handlers found.payload.stage

/-- A task that enters the `finally` block by this step, with the channel open, does so at a good
stage. -/
def Enters (good : HandlerPool η → Stage δ η → Prop)
    (fromJson : NotificationKind → β → Except Throwable δ) (dispatcher : JobQueueDispatcher β δ η)
    (action : DispatcherAction β η) : Prop :=
  ∀ (task : ℕ) (before : PoolTask (NotificationTask β δ η)) (execution : Option (Execution η))
    (exception : Option Throwable), dispatcher.tasks[task]? = some before → before.state = .running →
    Work fromJson dispatcher task before.payload action (.acknowledging execution exception) →
    (dispatcher.queue before.payload.kind).isOpen = true →
    good (dispatcher.queue before.payload.kind).handlers (.acknowledging execution exception)

/-- A task that has ended changes no more. -/
theorem ended_step {found : PoolTask (NotificationTask β δ η)} (coherent : Coherent dispatcher)
    (stepped : step fromJson dispatcher action = some next) (read : dispatcher.tasks[task]? = some found)
    (ended : found.state = .ended) : next.tasks[task]? = some found := by
  obtain ⟨_, _, _, _, recorded⟩ := coherent.linked task found read
  have progress := recorded.progress
  rw [ended] at progress
  cases step_tasks stepped with
  | same same => rw [same, read]
  | submitted kind ref body more => rw [more]; exact getElem?_alloc_of_some read
  | changed other before after known change moved =>
    rw [moved, List.getElem?_set]
    split
    · next here =>
      subst here
      cases read.symm.trans known
      obtain ⟨inside, -⟩ := List.getElem?_eq_some_iff.mp read
      rw [if_pos inside]
      cases change with
      | take =>
        rw [PoolTask.take]
        rw [if_neg progress.1, ← ended]
      | work stage running => rw [ended] at running; contradiction
      | finish answer running => rw [ended] at running; contradiction
    · exact read

/-- The task of an acknowledged notification has ended. -/
theorem ended_of_acked {found : PoolTask (NotificationTask β δ η)} (coherent : Coherent dispatcher)
    (read : (dispatcher.queue kind).deliveries[ref]? = some delivery) (acked : delivery.acks ≠ 0)
    (own : delivery.task = some task) (known : dispatcher.tasks[task]? = some found) :
    found.state = .ended ∧ delivery.acks = 1 := by
  rcases coherent.handed kind ref delivery read with ⟨-, none⟩ | ⟨other, _, same, readOther, rfl, rfl⟩
  · exact absurd none acked
  · cases own.symm.trans same
    cases known.symm.trans readOther
    obtain ⟨one, readOne, _, _, recorded⟩ := coherent.linked task found known
    cases read.symm.trans readOne
    have progress := recorded.progress
    split at progress
    · exact absurd progress.2.1 acked
    · exact absurd progress.2 acked
    · next ended => exact ⟨ended, progress.2.1.resolve_right fun unacked => acked unacked.1⟩

/-- A notification that has been acknowledged keeps what it shows. -/
theorem Shown.step (lasting : Lasting good) (coherent : Coherent dispatcher)
    (stepped : step fromJson dispatcher action = some next)
    (read : (dispatcher.queue kind).deliveries[ref]? = some delivery) (acked : delivery.acks ≠ 0)
    (shown : Shown good dispatcher kind delivery) : Shown good next kind delivery := by
  obtain ⟨task, found, own, known, shows⟩ := shown
  exact ⟨task, found, own,
    ended_step coherent stepped known (ended_of_acked coherent read acked own known).1,
    lasting _ _ _ (step_ages coherent.unsubscribed stepped kind).handlers shows⟩

private theorem ackedShown_step (lasting : Lasting good) (coherent : Coherent dispatcher)
    (backed : Backed good dispatcher) (stepped : step fromJson dispatcher action = some next) :
    AckedShown good next := by
  intro kind ref after read acked
  cases step_notified stepped read with
  | same old => exact (backed.acknowledged kind ref after old acked).step lasting coherent stepped old acked
  | delivered body waited fresh => subst fresh; exact absurd rfl acked
  | handedOver before old fresh same =>
    subst same
    rcases coherent.handed kind ref before old with ⟨-, none⟩ | ⟨_, _, own, -⟩
    · exact absurd none acked
    · rw [fresh] at own; contradiction
  | acked before task job execution exception answer old active sameKind own stage opened tasks same =>
    subst same
    obtain ⟨found, known, running, rfl⟩ := running_eq_some.mp active
    subst sameKind own
    obtain ⟨one, readOne, sameTask, _, _⟩ := coherent.linked task found known
    cases old.symm.trans readOne
    refine ⟨task, found.finish answer, sameTask, by rw [tasks]; exact getElem?_modify_self known, ?_⟩
    rw [PoolTask.finish_payload]
    exact lasting _ _ _ (step_ages coherent.unsubscribed stepped _).handlers
      (backed.acknowledging task found execution exception known running stage opened)

private theorem backed_step (lasting : Lasting good) (coherent : Coherent dispatcher)
    (backed : Backed good dispatcher) (enters : Enters good fromJson dispatcher action)
    (stepped : step fromJson dispatcher action = some next) : Backed good next := by
  refine ⟨ackedShown_step lasting coherent backed stepped, ?_⟩
  intro task after execution exception read running stage opened
  have old {before : PoolTask (NotificationTask β δ η)} (known : dispatcher.tasks[task]? = some before)
      (sameKind : before.payload.kind = after.payload.kind) :
      (dispatcher.queue before.payload.kind).isOpen = true ∧
        (dispatcher.queue before.payload.kind).handlers.handlers <+:
          (next.queue after.payload.kind).handlers.handlers := by
    have ages := step_ages coherent.unsubscribed stepped before.payload.kind
    obtain ⟨delivery, readDelivery, -⟩ := coherent.linked task before known
    rw [← sameKind] at opened
    refine ⟨(ages.isOpen opened).resolve_right ?_, sameKind ▸ ages.handlers⟩
    exact List.ne_nil_of_mem (List.mem_of_getElem? readDelivery)
  cases (step_tasks stepped).origin read with
  | same known =>
    obtain ⟨open', grown⟩ := old known rfl
    exact lasting _ _ _ grown
      (backed.acknowledging task after execution exception known running stage open')
  | submitted kind ref body fresh => subst fresh; contradiction
  | changed before known change =>
    cases change with
    | take =>
      have payload := PoolTask.take_id_payload before
      rw [payload] at stage ⊢
      obtain ⟨open', grown⟩ := old known (by rw [payload])
      refine lasting _ _ _ (by rwa [payload] at grown)
        (backed.acknowledging task before execution exception known ?_ stage open')
      obtain ⟨_, _, _, _, recorded⟩ := coherent.linked task before known
      have progress := recorded.progress
      rw [PoolTask.take] at running
      split at progress
      · rw [stage] at progress
        exact absurd progress.2.2 (by simp)
      · assumption
      · rw [if_neg progress.1] at running
        contradiction
    | work moved active work =>
      obtain ⟨open', grown⟩ := old known rfl
      rw [show moved = .acknowledging execution exception from stage] at work ⊢
      exact lasting _ _ _ grown (enters task before execution exception known active work open')
    | finish answer active =>
      contradiction

/-- A running task in the `finally` block of an open channel that does not show what it should. -/
def Unbacked (good : HandlerPool η → Stage δ η → Prop) (dispatcher : JobQueueDispatcher β δ η) : Prop :=
  ∃ (task : ℕ) (found : PoolTask (NotificationTask β δ η)) (execution : Option (Execution η))
    (exception : Option Throwable), dispatcher.tasks[task]? = some found ∧ found.state = .running ∧
    found.payload.stage = .acknowledging execution exception ∧
    (dispatcher.queue found.payload.kind).isOpen = true ∧
    ¬ good (dispatcher.queue found.payload.kind).handlers found.payload.stage

/-- The block is entered at a stage that does not show what it should. -/
theorem unbacked_setStage {found : PoolTask (NotificationTask β δ η)} {execution : Option (Execution η)}
    {exception : Option Throwable} (known : dispatcher.tasks[task]? = some found)
    (running : found.state = .running) (opened : (dispatcher.queue found.payload.kind).isOpen = true)
    (bad : ¬ good (dispatcher.queue found.payload.kind).handlers (.acknowledging execution exception)) :
    Unbacked good (dispatcher.setStage task (.acknowledging execution exception)) := by
  refine ⟨task, found.advance ({ · with stage := .acknowledging execution exception }), execution,
    exception, getElem?_modify_self known, running, rfl, ?_, ?_⟩
  · rw [setStage, withWorkers_queue]
    exact opened
  · rw [setStage, withWorkers_queue]
    exact bad

/-- A turn of the loop that calls no handler leads to the block. -/
theorem leaves_loop {job : NotificationTask β δ η} {notification : δ} {execution : Execution η}
    (stepped : step fromJson dispatcher (.work task) = some next)
    (active : dispatcher.running task = some job) (stage : job.stage = .executing notification execution)
    (idle : execution.running = none)
    (turn : ∀ handler, (dispatcher.queue job.kind).handlers.turn execution ≠ .handle handler) :
    ∃ exception, next = dispatcher.setStage task (.acknowledging (some execution) exception) := by
  obtain ⟨_, same, worked⟩ := Option.bind_eq_some_iff.mp stepped
  cases active.symm.trans same
  rw [work] at worked
  rw [stage] at worked
  dsimp only at worked
  rw [idle, if_neg (by simp)] at worked
  split at worked <;> cases worked
  · exact ⟨_, rfl⟩
  · exact ⟨_, rfl⟩
  · next called => exact absurd called (turn _)

/-- Its next statement acknowledges all the same. -/
theorem Unbacked.acknowledges (fromJson : NotificationKind → β → Except Throwable δ)
    (coherent : Coherent dispatcher) (unbacked : Unbacked good dispatcher) :
    ∃ task next, step fromJson dispatcher (.work task) = some next ∧ ¬ AckedShown good next := by
  obtain ⟨task, found, execution, exception, known, running, stage, opened, bad⟩ := unbacked
  obtain ⟨delivery, read, own, -⟩ := coherent.linked task found known
  refine ⟨task, (dispatcher.withWorkers (dispatcher.workers.finish task
    (if exception.isNone then .normal else .exceptional))).setQueue found.payload.kind
      ((dispatcher.queue found.payload.kind).basicAck found.payload.delivery), ?_, ?_⟩
  · simp only [step, running_eq_some.mpr ⟨found, known, running, rfl⟩, Option.bind_some, work, stage,
      if_pos opened]
  · intro shown
    obtain ⟨_, after, same, readAfter, shows⟩ := shown found.payload.kind found.payload.delivery
      { delivery with acks := delivery.acks + 1 }
      (by rw [queue_setQueue, if_pos rfl]; exact getElem?_modify_self read) (Nat.succ_ne_zero _)
    cases own.symm.trans same
    rw [setQueue_tasks] at readAfter
    cases (getElem?_modify_self known).symm.trans readAfter
    rw [PoolTask.finish_payload, queue_setQueue, if_pos rfl] at shows
    exact bad shows

/-- Every acknowledgement so far shows what it should, and so will the one that a task may be about
to make. -/
def Safe (good : HandlerPool η → Stage δ η → Prop)
    (fromJson : NotificationKind → β → Except Throwable δ) (dispatcher : JobQueueDispatcher β δ η) :
    Prop :=
  AckedShown good dispatcher ∧ ∀ (task : ℕ) (next : JobQueueDispatcher β δ η),
    step fromJson dispatcher (.work task) = some next → AckedShown good next

/-- The rule for runs: if a condition on steps lets tasks enter the `finally` block at good stages only,
and its violation always lets one enter at another, then the runs that are safe in all their states are
those whose steps meet it. -/
theorem safe_iff {workers : ℕ} {waiting : NotificationKind → List β}
    (inv : JobQueueDispatcher β δ η → Prop) {allowed : DispatcherAction β η → Prop}
    {condition : JobQueueDispatcher β δ η → DispatcherAction β η → Prop} (lasting : Lasting good)
    (preserved : ∀ source action target, inv source → allowed action →
      step fromJson source action = some target → inv target)
    (sound : ∀ source action, Coherent source → inv source → condition source action →
      Enters good fromJson source action)
    (exact : ∀ source action target, Coherent source → step fromJson source action = some target →
      ¬ condition source action → Unbacked good target)
    (initial : inv (starting workers waiting)) (admitted : ∀ action ∈ actions, allowed action)
    (ran : run (step fromJson) (starting workers waiting) actions = some dispatcher) :
    (∀ before after reached, actions = before ++ after →
      run (step fromJson) (starting workers waiting) before = some reached →
      Safe good fromJson reached) ↔
    Along (step fromJson) condition (starting workers waiting) actions := by
  have coherent : Coherent (starting (δ := δ) (η := η) workers waiting) :=
    coherent_starting workers waiting
  constructor
  · rintro safe before action after middle rfl reached
    by_contra violated
    obtain ⟨source, found, continued⟩ := run_append_eq_some.mp ran
    cases reached.symm.trans found
    obtain ⟨target, stepped, -⟩ := run_cons_eq_some.mp continued
    have orderly := coherent_of_run coherent reached
    obtain ⟨task, next, acks, bad⟩ :=
      (exact middle action target orderly stepped violated).acknowledges fromJson
        (coherent_step orderly stepped)
    exact bad ((safe (before ++ [action]) after target (by simp) (run_snoc reached stepped)).2 task next acks)
  · rintro along before after reached rfl toReached
    have backed : Backed good (starting (δ := δ) (η := η) workers waiting) := by
      refine ⟨fun kind ref delivery read => ?_, by simp [starting, tasks]⟩
      cases kind <;> simp [starting, JobQueueDispatcher.queue] at read
    have meets : Along (step fromJson) (fun dispatcher action => condition dispatcher action ∧
        allowed action) (starting workers waiting) before := by
      intro first action rest middle same toMiddle
      exact ⟨along.left first action rest middle same toMiddle, admitted action (by simp [same])⟩
    have kept : Coherent reached ∧ inv reached ∧ Backed good reached := by
      refine run_invariant_along (motive := fun dispatcher => Coherent dispatcher ∧ inv dispatcher ∧
        Backed good dispatcher) ?_ ⟨coherent, initial, backed⟩ meets toReached
      rintro source action target ⟨orderly, holds, backed⟩ ⟨met, permitted⟩ stepped
      exact ⟨coherent_step orderly stepped, preserved source action target holds permitted stepped,
        backed_step lasting orderly backed (sound source action orderly holds met) stepped⟩
    exact ⟨kept.2.2.acknowledged, fun task next stepped =>
      ackedShown_step lasting kept.1 kept.2.2 stepped⟩

end RabbitJobQueue.Model.JobQueueDispatcher
