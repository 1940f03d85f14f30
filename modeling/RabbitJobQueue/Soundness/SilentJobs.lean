import RabbitJobQueue.Proofs.DeliveryHistory

/-! # Jobs that no handler sees

A job whose loop over the handlers finds none ends normally, like one whose handlers have all
returned, and is acknowledged for it. The constructor of an executor subscribes before a handler can
be registered, so this happens to messages that are already waiting. It is the only way in which the
normal path acknowledges a message no handler was called for.
-/

namespace RabbitJobQueue.Soundness.SilentJobs

open Machine Model Model.JobQueue

variable {ε β δ η : Type} {fromJson : β → Except Throwable δ} {queue middle next : JobQueue ε β δ η}
  {ref : DeliveryRef} {delivery after : Delivery β δ} {action : JobQueueAction β η}

/-- The delivery's job has come back, and a registered handler has been called for it. -/
def Passed (queue : JobQueue ε β δ η) (ref : DeliveryRef) (delivery : Delivery β δ) : Prop :=
  ∃ found execution, IsTask queue ref delivery found ∧ found.future = .normal ∧
    found.payload.execution = some execution ∧
    ∃ handler ∈ queue.handlers.handlers, handler ∈ execution.returned

/-- No job message has been acknowledged on the normal path that no handler was called for. -/
def NoneSilent (queue : JobQueue ε β δ η) : Prop :=
  ∀ (ref : DeliveryRef) (delivery : Delivery β δ), queue.deliveries[ref]? = some delivery →
    delivery.phase = .returned .acknowledged → Passed queue ref delivery

/-- If the step begins the loop over the handlers for a job that its delivery callback still waits
for, on an open channel, then there is a handler. -/
def FindsHandler (queue : JobQueue ε β δ η) (action : JobQueueAction β η) : Prop :=
  ∀ (task : ℕ) (execution : Execution η) (ref : DeliveryRef) (delivery : Delivery β δ) (dispatch : δ),
    action = .nextHandler task → queue.running task = some execution →
    execution.running = none → execution.returned = [] →
    queue.deliveries[ref]? = some delivery → delivery.future = some task →
    delivery.phase = .awaiting dispatch → queue.answer delivery = some .pending →
    queue.pool.isOpen delivery.channel = true → queue.handlers.handlers ≠ []

/-- A job that has come back changes no more. -/
theorem TaskStep.kept {task : ℕ} {before : PoolTask (Job δ η)} (tasks : TaskStep queue next)
    (sound : ∀ task ∈ queue.tasks, SoundTask queue.handlers task)
    (read : queue.tasks[task]? = some before) (normal : before.future = .normal) :
    ∃ ended, next.tasks[task]? = some ended ∧ ended.future = .normal ∧ ended.payload = before.payload := by
  cases tasks with
  | same same => exact ⟨before, by rw [same, read], normal, rfl⟩
  | submitted ref dispatch more =>
    exact ⟨before, by rw [more]; exact getElem?_alloc_of_some read, normal, rfl⟩
  | changed other found changed known change moved =>
    rw [moved, List.getElem?_set]
    by_cases here : other = task
    · subst here
      cases read.symm.trans known
      obtain ⟨inside, -⟩ := List.getElem?_eq_some_iff.mp read
      have still : before.state ≠ .running := fun running =>
        (sound before (List.mem_of_getElem? read)).not_normal running normal
      refine ⟨changed, by rw [if_pos rfl, if_pos inside], ?_⟩
      cases change with
      | take =>
        rw [PoolTask.take]
        rw [if_neg (by rw [normal]; decide)]
        exact ⟨normal, rfl⟩
      | cancel =>
        rw [PoolTask.settle_of_settled (by rw [normal]; decide)]
        exact ⟨normal, rfl⟩
      | handle execution handler running => exact absurd running still
      | finishHandler execution running => exact absurd running still
      | finish execution running => exact absurd running still
      | throw running => exact absurd running still
    · exact ⟨before, by rw [if_neg here, read], normal, rfl⟩

private theorem Passed.step (tasks : TaskStep queue next) (older : Older queue next)
    (coherent : Coherent queue)
    (passed : Passed queue ref delivery) (same : after.future = delivery.future) :
    Passed next ref after := by
  obtain ⟨found, execution, ⟨task, future, read, own⟩, normal, carried, handler, registered, called⟩ := passed
  obtain ⟨ended, readEnded, still, payload⟩ := TaskStep.kept tasks coherent.sound read normal
  exact ⟨ended, execution, ⟨task, same.trans future, readEnded, by rw [payload, own]⟩, still,
    by rw [payload, carried], handler, older.handlers.subset registered, called⟩

/-- The delivery's acknowledgement, had or still to come, is for a job some handler was called for. -/
structure Heard (queue : JobQueue ε β δ η) (ref : DeliveryRef) (delivery : Delivery β δ) : Prop where
  acknowledged : delivery.phase = .returned .acknowledged → Passed queue ref delivery
  completed : delivery.phase = .completed → queue.pool.isOpen delivery.channel = true →
    Passed queue ref delivery
  awaiting : ∀ dispatch, delivery.phase = .awaiting dispatch →
    queue.pool.isOpen delivery.channel = true → queue.answer delivery = some .normal →
    Passed queue ref delivery

/-- Every delivery of the queue is heard. -/
def AllHeard (queue : JobQueue ε β δ η) : Prop :=
  ∀ (ref : DeliveryRef) (delivery : Delivery β δ), queue.deliveries[ref]? = some delivery →
    Heard queue ref delivery

private theorem answer_eq_some {answer : FutureState} : queue.answer delivery = some answer ↔
    ∃ task found, delivery.future = some task ∧ queue.tasks[task]? = some found ∧ found.future = answer := by
  simp only [JobQueue.answer, Option.map_eq_some_iff, Option.bind_eq_some_iff]
  constructor
  · rintro ⟨found, ⟨task, future, read⟩, same⟩
    exact ⟨task, found, future, read, same⟩
  · rintro ⟨task, found, future, read, same⟩
    exact ⟨found, ⟨task, future, read⟩, same⟩

section Steps

variable [ExecutorFailureEnforcer ε] (coherent : Coherent queue)
include coherent

/-- A job that its callback still waits for comes back only when some handler was called for it. -/
theorem passed_of_answered {dispatch : δ} (finds : FindsHandler queue action)
    (stepped : step fromJson queue action = some next) (read : queue.deliveries[ref]? = some delivery)
    (phase : delivery.phase = .awaiting dispatch) (heard : Heard queue ref delivery)
    (opened : next.pool.isOpen delivery.channel = true) (answer : next.answer delivery = some .normal) :
    Passed next ref delivery := by
  have recorded := coherent.recorded ref delivery read
  have open' := (step_older stepped).isOpen opened recorded.inside
  obtain ⟨task, ended, future, readEnded, normal⟩ := answer_eq_some.mp answer
  rcases step_normal stepped readEnded normal with ⟨before, known, already⟩ |
    ⟨before, execution, rfl, known, running, pending, carried, idle, turn, rfl⟩
  · have passed := heard.awaiting dispatch phase open'
      (answer_eq_some.mpr ⟨task, before, future, known, already⟩)
    exact passed.step (step_tasks stepped) (step_older stepped) coherent rfl
  · have follows := (coherent.sound before (List.mem_of_getElem? known)).follows execution carried
    have nonempty : execution.returned ≠ [] := by
      intro none
      have handlers := finds task execution ref delivery dispatch rfl
        (running_eq_some.mpr ⟨before, known, running, carried⟩) idle none read future phase
        (answer_eq_some.mpr ⟨task, before, future, known, pending⟩) open'
      rw [HandlerPool.turn] at turn
      rw [none, List.length_nil, if_neg (by simpa [eq_comm] using handlers)] at turn
      split at turn
      · contradiction
      · split at turn <;> contradiction
    obtain ⟨handler, called⟩ := List.exists_mem_of_ne_nil _ nonempty
    have registered : handler ∈ queue.handlers.handlers :=
      follows.registered.subset (follows.called.subset (List.mem_append_left _ called))
    have chronicle := recorded.chronicle
    rw [Chronicle] at chronicle
    rw [phase] at chronicle
    obtain ⟨-, found, other, same, readFound, own⟩ := chronicle
    cases future.symm.trans same
    cases known.symm.trans readFound
    exact ⟨_, execution, ⟨task, future, readEnded, by rw [PoolTask.finish_payload, own]⟩, normal,
      by rw [PoolTask.finish_payload, carried], handler,
      (step_older stepped).handlers.subset registered, called⟩

private theorem allHeard_step (heard : AllHeard queue) (finds : FindsHandler queue action)
    (stepped : step fromJson queue action = some next) : AllHeard next := by
  intro ref delivery read
  have tasks := step_tasks stepped
  have older := step_older stepped
  cases (step_deliveries stepped).origin read with
  | same old =>
    have inside := (coherent.recorded ref delivery old).inside
    have ⟨acknowledged, completed, _⟩ := heard ref delivery old
    exact ⟨fun phase => (acknowledged phase).step tasks older coherent rfl,
      fun phase opened => (completed phase (older.isOpen opened inside)).step tasks older coherent rfl,
      fun dispatch phase opened answer =>
        passed_of_answered coherent finds stepped old phase (heard ref delivery old) opened answer⟩
  | advanced before asked known advance =>
    have inside := (coherent.recorded ref before known).inside
    have ⟨_, completed, awaiting⟩ := heard ref before known
    cases advance with
    | submit phase submitted =>
      refine ⟨by simp, by simp, fun _ _ _ answer => ?_⟩
      obtain ⟨task, found, future, readFound, normal⟩ := answer_eq_some.mp answer
      cases future
      rw [submitted, List.getElem?_concat_length] at readFound
      cases readFound
      contradiction
    | jobReturned phase answer =>
      refine ⟨by simp, fun _ opened => ?_, by simp⟩
      exact (awaiting _ phase (older.isOpen opened inside) answer).step tasks older coherent rfl
    | ack phase opened =>
      exact ⟨fun _ => (completed phase opened).step tasks older coherent rfl, by simp, by simp⟩
    | _ => exact ⟨by simp, by simp, by simp⟩
  | delivered ex body live fresh =>
    subst fresh
    exact ⟨by simp, by simp, by simp⟩

end Steps

section Exactness

variable [ExecutorFailureEnforcer ε] {dispatch : δ} {task : ℕ}

/-- `future.get` returns, and the message is acknowledged. -/
theorem run_acknowledge (fromJson : β → Except Throwable δ)
    (read : queue.deliveries[ref]? = some delivery) (phase : delivery.phase = .awaiting dispatch)
    (answer : queue.answer delivery = some .normal)
    (opened : queue.pool.isOpen delivery.channel = true) :
    ∃ next, run (step fromJson) queue [.callback ref .answered, .callback ref .answered] = some next ∧
      next.tasks = queue.tasks ∧ next.deliveries[ref]? =
        some { delivery with phase := .returned .acknowledged, acks := delivery.acks + 1 } := by
  have completed : (queue.setPhase ref .completed).deliveries[ref]? =
      some { delivery with phase := .completed } := getElem?_modify_self read
  obtain ⟨inside, -⟩ := List.getElem?_eq_some_iff.mp completed
  refine ⟨((({ queue.setPhase ref .completed with broker := queue.broker.ack ref } :
    JobQueue ε β δ η).setDelivery ref ({ · with acks := delivery.acks + 1 })).setPhase ref
      (.returned .acknowledged)), ?_, rfl, ?_⟩
  · refine run_cons_eq_some.mpr ⟨queue.setPhase ref .completed, ?_, ?_⟩
    · simp only [step, read, Option.bind_some, callback, phase, answer]
    · rw [run_singleton]
      have still : (queue.setPhase ref .completed).pool.isOpen delivery.channel = true := opened
      simp only [step, completed, Option.bind_some, callback, basicAck, if_pos still]
      rfl
  · exact (congrArg (·[ref]?) (setDelivery_setPhase_deliveries completed)).trans
      (List.getElem?_set_self inside)

/-- A loop that begins without a handler ends at once, and the message is acknowledged. -/
theorem acknowledged_unheard (stepped : step fromJson queue action = some middle)
    (finds : ¬ FindsHandler queue action) :
    ∃ ref next, run (step fromJson) middle [.callback ref .answered, .callback ref .answered] = some next ∧
      ¬ NoneSilent next := by
  rw [FindsHandler] at finds
  push Not at finds
  obtain ⟨task, execution, ref, delivery, dispatch, rfl, running, idle, none, read, future, phase, answer,
    opened, empty⟩ := finds
  obtain ⟨before, known, active, carried⟩ := running_eq_some.mp running
  obtain ⟨_, _, same, readSame, pending⟩ := answer_eq_some.mp answer
  cases future.symm.trans same
  cases known.symm.trans readSame
  have turn : queue.handlers.turn execution = .done := by
    rw [HandlerPool.turn]
    rw [none, empty, if_pos rfl]
  cases step_spec stepped with
  | nextHandler task other runningOther idleOther same =>
    cases running.symm.trans runningOther
    subst same
    have ended : (queue.nextHandler task execution).tasks[task]? = some (before.finish .normal) := by
      rw [nextHandler]
      rw [turn]
      exact getElem?_modify_self known
    have deliveries := nextHandler_deliveries queue task execution
    have open' : (queue.nextHandler task execution).pool.isOpen delivery.channel = true := by
      rw [nextHandler]
      rw [turn]
      exact opened
    obtain ⟨next, acks, tasks, acknowledged⟩ := run_acknowledge fromJson (deliveries ▸ read) phase
      (answer_eq_some.mpr ⟨task, _, future, ended, by rw [PoolTask.finish_future, if_pos pending]⟩) open'
    refine ⟨ref, next, acks, fun heard => ?_⟩
    obtain ⟨found, carriedOn, ⟨_, sameTask, readFound, -⟩, -, executed, handler, -, called⟩ :=
      heard ref _ acknowledged rfl
    cases future.symm.trans sameTask
    rw [tasks, ended] at readFound
    cases readFound
    rw [PoolTask.finish_payload, carried] at executed
    cases executed
    rw [none] at called
    contradiction

end Exactness

/-- Nothing has been acknowledged unheard, and whatever statements the delivery callbacks go on to
execute, nothing will be. -/
def Safe (fromJson : β → Except Throwable δ) [ExecutorFailureEnforcer ε] (queue : JobQueue ε β δ η) :
    Prop :=
  ∀ (statements : List (DeliveryRef × Wait)) (next : JobQueue ε β δ η),
    run (step fromJson) queue (statements.map fun (ref, wait) => .callback ref wait) = some next →
    NoneSilent next

theorem safe_iff_findsHandler [ExecutorFailureEnforcer ε] {actions : List (JobQueueAction β η)}
    (coherent : Coherent queue) (heard : AllHeard queue)
    (ran : run (step fromJson) queue actions = some next) :
    (∀ before after reached, actions = before ++ after →
      run (step fromJson) queue before = some reached → Safe fromJson reached) ↔
    Along (step fromJson) FindsHandler queue actions := by
  constructor
  · rintro safe before action after middle rfl reached
    by_contra finds
    obtain ⟨source, found, continued⟩ := run_append_eq_some.mp ran
    cases reached.symm.trans found
    obtain ⟨target, stepped, -⟩ := run_cons_eq_some.mp continued
    obtain ⟨ref, ending, acks, silent⟩ := acknowledged_unheard stepped finds
    exact silent (safe (before ++ [action]) after target (by simp) (run_snoc reached stepped)
      [(ref, .answered), (ref, .answered)] ending acks)
  · rintro along before after reached rfl toReached statements ending toEnding
    have preserved (source : JobQueue ε β δ η) (action : JobQueueAction β η) (target : JobQueue ε β δ η)
        (good : Coherent source ∧ AllHeard source) (finds : FindsHandler source action)
        (stepped : step fromJson source action = some target) : Coherent target ∧ AllHeard target :=
      ⟨coherent_step good.1 stepped, allHeard_step good.1 good.2 finds stepped⟩
    have good := run_invariant_along preserved ⟨coherent, heard⟩ along.left toReached
    have callbacks : Along (step fromJson) FindsHandler reached
        (statements.map fun (ref, wait) => .callback ref wait) := by
      rintro before action after source same - task execution ref delivery dispatch rfl
      have member : JobQueueAction.nextHandler task ∈ statements.map fun (ref, wait) =>
          (.callback ref wait : JobQueueAction β η) := by
        rw [same]
        exact List.mem_append_right _ List.mem_cons_self
      obtain ⟨_, -, other⟩ := List.mem_map.mp member
      contradiction
    intro ref delivery read
    exact ((run_invariant_along preserved good callbacks toEnding).2 ref delivery read).acknowledged

end RabbitJobQueue.Soundness.SilentJobs
