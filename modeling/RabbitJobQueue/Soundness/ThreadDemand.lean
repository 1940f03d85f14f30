import RabbitJobQueue.Proofs.CallbackOrder
import RabbitJobQueue.Proofs.JobQueueSchedule
import RabbitJobQueue.Soundness.UnstartedJobs

/-! # The jobs that need a thread

A consumer runs one callback at a time, and the callback waits for its job. So of the jobs of one consumer
only one has not ended, those apart whose wait has timed out: they may go on for as long as their handlers
like. The jobs that have not ended are never more than the consumers ever created and the waits that have
timed out; and as long as these are no more than the workers, every job that waits has a thread free for it.
-/

namespace RabbitJobQueue.Soundness.ThreadDemand

open Machine Machine.ThreadPool Model Model.JobQueue JobQueueExecutorPool

variable {ε β δ η : Type} {fromJson : β → Except Throwable δ} {queue next : JobQueue ε β δ η}
  {ref : DeliveryRef} {delivery after : Delivery β δ} {action : JobQueueAction β η}

/-- The delivery a task was submitted for. -/
def owner (task : PoolTask (Job δ η)) : DeliveryRef := task.payload.delivery

/-- The future of a task is that of its delivery. -/
def Owned (queue : JobQueue ε β δ η) : Prop :=
  ∀ (task : ℕ) (holder : DeliveryRef), (queue.tasks.map owner)[task]? = some holder →
    ∃ delivery, queue.deliveries[holder]? = some delivery ∧ delivery.future = some task

/-- A delivery whose job is submitted has no other job. -/
theorem Advance.future (advance : Advance fromJson queue next ref delivery after)
    (recorded : Recorded queue ref delivery) {task : ℕ} (future : delivery.future = some task) :
    after.future = some task := by
  cases advance with
  | submit phase submitted =>
    have chronicle := recorded.chronicle
    rw [Chronicle, phase] at chronicle
    rw [chronicle.2] at future
    contradiction
  | _ => exact future

private theorem winds_tasks {π : Type} {forced : Prop} {before after : ThreadPool π}
    (winds : Winds forced before after) : after.tasks = before.tasks := by
  cases winds <;> rfl

/-- A step submits a job for the delivery whose callback it executes, or leaves all jobs their deliveries. -/
theorem step_owners [ExecutorFailureEnforcer ε] (stepped : step fromJson queue action = some next) :
    next.tasks.map owner = queue.tasks.map owner ∨ ∃ ref after, next.deliveries[ref]? = some after ∧
      after.future = some queue.tasks.length ∧ next.tasks.map owner = queue.tasks.map owner ++ [ref] := by
  cases step_spec stepped with
  | publish body same => subst same; exact .inl rfl
  | deliver position ex broker body live handed same => subst same; exact .inl rfl
  | callback ref delivery wait read called =>
    obtain ⟨after, spec, threads⟩ := callback_threads read called
    obtain ⟨inside, -⟩ := List.getElem?_eq_some_iff.mp read
    have readAfter : next.deliveries[ref]? = some after := by
      rw [spec.deliveries, List.getElem?_set_self inside]
    unfold JobQueue.tasks
    generalize next.pool.threads = moved at threads ⊢
    cases threads with
    | same => exact .inl rfl
    | submitted submitted phase awaiting =>
      obtain ⟨-, -, rfl⟩ := submit_eq_some.mp submitted
      refine .inr ⟨ref, after, readAfter, ?_, List.map_append⟩
      have advance := spec.advance
      cases advance with
      | submit => rfl
      | _ => simp_all only [reduceCtorEq]
    | cancelled task => exact .inl (map_modify_of_same fun task => by simp [owner])
  | handleException ref delivery exception read phase same => subst same; exact .inl rfl
  | takeTask threads taken same =>
    subst same
    obtain ⟨task, rest, -, -, rfl⟩ := take_eq_some.mp taken
    refine .inl (map_modify_of_same fun task => ?_)
    rw [PoolTask.take]
    split <;> rfl
  | nextHandler task execution running idle same =>
    subst same
    rw [nextHandler]
    split
    · exact .inl (map_modify_of_same fun task => by simp [owner])
    · exact .inl (map_modify_of_same fun task => by simp [owner])
    · exact .inl (map_modify_of_same fun _ => rfl)
  | handlerReturns task execution running inside same =>
    subst same
    exact .inl (map_modify_of_same fun _ => rfl)
  | handlerThrows task execution running inside same =>
    subst same
    exact .inl (map_modify_of_same fun task => by simp [owner])
  | onJob handler constructed same => subst same; exact .inl rfl
  | pool action threads other moved same =>
    subst same
    exact .inl (congrArg (·.map owner) (winds_tasks (PoolThreads.step_winds moved)))

private theorem owned_step [ExecutorFailureEnforcer ε] (coherent : Coherent queue) (owned : Owned queue)
    (stepped : step fromJson queue action = some next) : Owned next := by
  have deliveries := step_deliveries stepped
  have still : ∀ (task : ℕ) (holder : DeliveryRef), (queue.tasks.map owner)[task]? = some holder →
      ∃ delivery, next.deliveries[holder]? = some delivery ∧ delivery.future = some task := by
    intro task holder read
    obtain ⟨delivery, known, future⟩ := owned task holder read
    obtain ⟨after, readAfter, -, same | ⟨-, advance⟩⟩ := deliveries.kept known
    · exact ⟨after, readAfter, same ▸ future⟩
    · exact ⟨after, readAfter, Advance.future advance (coherent.recorded holder delivery known) future⟩
  intro task holder read
  rcases step_owners stepped with same | ⟨ref, after, known, future, more⟩
  · exact still task holder (same ▸ read)
  · rw [more] at read
    rcases getElem?_alloc_eq_some.mp read with old | ⟨rfl, rfl⟩
    · exact still task holder old
    · exact ⟨after, known, by rw [future, List.length_map]⟩

/-- The callback has looked at its channel and found it open. -/
def accepted (delivery : Delivery β δ) : Prop :=
  delivery.phase ≠ .received ∧ delivery.phase ≠ .returned .channelClosed

/-- When a callback goes on, the callbacks ahead of it have returned. -/
def InTurn (queue : JobQueue ε β δ η) : Prop :=
  ∀ (first second : DeliveryRef) (earlier later : Delivery β δ), first < second →
    queue.deliveries[first]? = some earlier → queue.deliveries[second]? = some later →
    earlier.channel = later.channel → accepted later → ∃ exit, earlier.phase = .returned exit

private theorem returned_of_isNext (coherent : Coherent queue) {first : DeliveryRef} {earlier : Delivery β δ}
    (turn : queue.isNext ref earlier.channel = true) (opened : queue.pool.isOpen earlier.channel = true)
    (before : first < ref) (read : queue.deliveries[first]? = some earlier) :
    ∃ exit, earlier.phase = .returned exit := by
  have ended := isOver_of_isNext turn before read
  cases phase : earlier.phase with
  | returned exit => exact ⟨exit, rfl⟩
  | failed exception =>
    -- the client has closed the channel of a callback that threw
    have chronicle := (coherent.recorded first earlier read).chronicle
    rw [Chronicle, phase, opened] at chronicle
    exact absurd chronicle.2.2 (by decide)
  | _ => rw [phase] at ended; contradiction

private theorem inTurn_step [ExecutorFailureEnforcer ε] (coherent : Coherent queue) (inTurn : InTurn queue)
    (stepped : step fromJson queue action = some next) : InTurn next := by
  intro first second earlier later before readFirst readSecond channel goesOn
  have deliveries := step_deliveries stepped
  -- a callback that has returned stays so, so it is enough that the earlier one had before
  have earlierReturned : ∀ old, queue.deliveries[second]? = some old → old.channel = later.channel →
      (∀ known, queue.deliveries[first]? = some known → known.channel = old.channel →
        ∃ exit, known.phase = .returned exit) → ∃ exit, earlier.phase = .returned exit := by
    intro old known same returned
    obtain ⟨inside, -⟩ := List.getElem?_eq_some_iff.mp known
    have readOld := List.getElem?_eq_getElem (Nat.lt_trans before inside)
    obtain ⟨after, readAfter, alike, moved⟩ := deliveries.kept readOld
    cases readFirst.symm.trans readAfter
    obtain ⟨exit, phase⟩ := returned _ readOld (alike.channel.symm.trans (channel.trans same.symm))
    rcases moved with unmoved | ⟨-, advance⟩
    · exact ⟨exit, unmoved ▸ phase⟩
    · have unfinished := advance.isOver
      rw [phase] at unfinished
      contradiction
  cases deliveries.origin readSecond with
  | same old =>
    exact earlierReturned later old rfl fun known readKnown same =>
      inTurn first second known later before readKnown old same goesOn
  | advanced old asked known advance =>
    apply earlierReturned old known advance.channel.symm
    intro first' readKnown same
    have unfinished := advance.isOver
    cases phase : old.phase with
    | received =>
      rcases advance.of_received phase with ⟨opened, rfl⟩ | ⟨-, rfl⟩
      · cases advance with
        | accept _ turn _ => exact returned_of_isNext coherent (same ▸ turn) (same ▸ opened) before readKnown
      · exact absurd rfl goesOn.2
    | returned exit => rw [phase] at unfinished; contradiction
    | _ => exact inTurn first second first' old before readKnown known same (by simp [accepted, phase])
  | delivered ex body live fresh =>
    subst fresh
    exact absurd rfl goesOn.1

private theorem accepted_of_future (recorded : Recorded queue ref delivery) {task : ℕ}
    (future : delivery.future = some task) : accepted delivery := by
  have chronicle := recorded.chronicle
  rw [Chronicle] at chronicle
  refine ⟨fun phase => ?_, fun phase => ?_⟩
  · rw [phase] at chronicle
    rw [chronicle.2] at future
    contradiction
  · rw [phase] at chronicle
    rw [chronicle.2.1] at future
    contradiction

/-- The job of a callback that has returned has ended, unless the wait for it has timed out. -/
theorem ended_of_returned (coherent : Coherent queue) (read : queue.deliveries[ref]? = some delivery)
    {exit : Exit} (phase : delivery.phase = .returned exit) {task : ℕ} {found : PoolTask (Job δ η)}
    (future : delivery.future = some task) (known : queue.tasks[task]? = some found)
    (inTime : delivery.timedOut = false) : found.state = .ended := by
  have chronicle := (coherent.recorded ref delivery read).chronicle
  rw [Chronicle, phase] at chronicle
  cases exit with
  | channelClosed =>
    rw [chronicle.2.1] at future
    contradiction
  | acknowledged =>
    obtain ⟨-, -, -, answered, ⟨other, same, readTask, -⟩, normal⟩ := chronicle
    cases future.symm.trans same
    cases known.symm.trans readTask
    exact ((coherent.sound found (List.mem_of_getElem? known)).normal normal).1
  | timedOut =>
    have late := chronicle.2.1.timedOut
    rw [inTime] at late
    contradiction

/-- The job waits for a thread or has one. -/
def unended (task : PoolTask (Job δ η)) : Bool := task.state ≠ .ended

/-- The wait of the job's callback has timed out. -/
def late (queue : JobQueue ε β δ η) (task : PoolTask (Job δ η)) : Bool :=
  (queue.deliveries[owner task]?).any (·.timedOut)

/-- The delivery of a task, by its reference. -/
def holder (queue : JobQueue ε β δ η) (task : ℕ) : DeliveryRef := ((queue.tasks.map owner)[task]?).getD 0

/-- The channel its delivery came over. -/
def consumer (queue : JobQueue ε β δ η) (task : ℕ) : ExecutorRef :=
  ((queue.deliveries[holder queue task]?).map (·.channel)).getD 0

private theorem holder_eq {task : ℕ} {found : PoolTask (Job δ η)} (known : queue.tasks[task]? = some found) :
    holder queue task = owner found := by
  rw [holder, List.getElem?_map, known]
  rfl

private theorem exists_delivery (owned : Owned queue) {task : ℕ} {found : PoolTask (Job δ η)}
    (known : queue.tasks[task]? = some found) : ∃ delivery,
      queue.deliveries[owner found]? = some delivery ∧ delivery.future = some task := by
  apply owned task
  rw [List.getElem?_map, known]
  rfl

/-- Two jobs of one delivery are the same job. -/
theorem eq_of_owner_eq (owned : Owned queue) {first second : ℕ} {one other : PoolTask (Job δ η)}
    (readFirst : queue.tasks[first]? = some one) (readSecond : queue.tasks[second]? = some other)
    (same : owner one = owner other) : first = second := by
  obtain ⟨delivery, known, future⟩ := exists_delivery owned readFirst
  obtain ⟨alike, knownAlike, futureAlike⟩ := exists_delivery owned readSecond
  rw [same, knownAlike] at known
  cases known
  exact Option.some.inj (future.symm.trans futureAlike)

/-- Of two jobs in time from one consumer, the one submitted for the earlier delivery has ended. -/
theorem ended_of_earlier (coherent : Coherent queue) (inTurn : InTurn queue) (owned : Owned queue)
    {first second : ℕ} {one other : PoolTask (Job δ η)} (readFirst : queue.tasks[first]? = some one)
    (readSecond : queue.tasks[second]? = some other) (inTime : late queue one = false)
    (before : owner one < owner other) (same : consumer queue first = consumer queue second) :
    one.state = .ended := by
  obtain ⟨earlier, knownEarlier, future⟩ := exists_delivery owned readFirst
  obtain ⟨later, knownLater, futureLater⟩ := exists_delivery owned readSecond
  have channel : earlier.channel = later.channel := by
    rw [consumer, consumer, holder_eq readFirst, holder_eq readSecond, knownEarlier, knownLater] at same
    exact same
  have goesOn := accepted_of_future (coherent.recorded _ later knownLater) futureLater
  obtain ⟨exit, phase⟩ := inTurn _ _ earlier later before knownEarlier knownLater channel goesOn
  rw [late, knownEarlier] at inTime
  exact ended_of_returned coherent knownEarlier phase future readFirst inTime

/-- The jobs in time that have not ended have consumers of their own. -/
theorem inTime_le (coherent : Coherent queue) (inTurn : InTurn queue) (owned : Owned queue) :
    queue.tasks.countP (fun task => unended task && !late queue task) ≤ queue.pool.executors.length := by
  rw [← List.countP_true]
  apply countP_le_of_charge (consumer queue)
  · intro task passes
    obtain ⟨found, known, -⟩ := mem_passing.mp passes
    obtain ⟨delivery, read, -⟩ := exists_delivery owned known
    have inside := (coherent.recorded _ delivery read).inside
    rw [consumer, holder_eq known, read]
    exact mem_passing.mpr ⟨_, List.getElem?_eq_getElem inside, rfl⟩
  · intro first passesFirst second passesSecond same
    obtain ⟨one, readFirst, open'⟩ := mem_passing.mp passesFirst
    obtain ⟨other, readSecond, openOther⟩ := mem_passing.mp passesSecond
    simp only [unended, Bool.and_eq_true, decide_eq_true_eq, Bool.not_eq_true'] at open' openOther
    rcases Nat.lt_trichotomy (owner one) (owner other) with before | alike | behind
    · exact absurd (ended_of_earlier coherent inTurn owned readFirst readSecond open'.2 before same) open'.1
    · exact eq_of_owner_eq owned readFirst readSecond alike
    · exact absurd (ended_of_earlier coherent inTurn owned readSecond readFirst openOther.2 behind same.symm)
        openOther.1

/-- The jobs whose wait has timed out have timed-out deliveries of their own. -/
theorem late_le (owned : Owned queue) :
    queue.tasks.countP (late queue) ≤ queue.deliveries.countP (·.timedOut) := by
  apply countP_le_of_charge (holder queue)
  · intro task passes
    obtain ⟨found, known, timedOut⟩ := mem_passing.mp passes
    obtain ⟨delivery, read, expired⟩ := (Option.any_eq_true _ _).mp timedOut
    rw [holder_eq known]
    exact mem_passing.mpr ⟨delivery, read, expired⟩
  · intro first passesFirst second passesSecond same
    obtain ⟨one, readFirst, -⟩ := mem_passing.mp passesFirst
    obtain ⟨other, readSecond, -⟩ := mem_passing.mp passesSecond
    rw [holder_eq readFirst, holder_eq readSecond] at same
    exact eq_of_owner_eq owned readFirst readSecond same

/-- Together: each consumer accounts for one job, and each wait that has timed out for one. -/
theorem unended_le (coherent : Coherent queue) (inTurn : InTurn queue) (owned : Owned queue) :
    queue.tasks.countP unended ≤ queue.pool.executors.length + queue.deliveries.countP (·.timedOut) := by
  have split := List.countP_eq_countP_filter_add queue.tasks unended (late queue)
  rw [List.countP_filter, List.countP_filter] at split
  have lates : queue.tasks.countP (fun task => unended task && late queue task) ≤
      queue.tasks.countP (late queue) :=
    List.countP_mono_left fun task _ both => (Bool.and_eq_true_iff.mp both).2
  have inTime := inTime_le coherent inTurn owned
  have expired := late_le owned
  omega

/-- What has not ended has a thread or waits for one. -/
theorem unended_eq (queue : JobQueue ε β δ η) : queue.tasks.countP unended =
    queue.pool.threads.active + queue.tasks.countP (·.state = .waiting) := by
  have split := List.countP_eq_countP_filter_add queue.tasks unended fun task => decide (task.state = .running)
  rw [List.countP_filter, List.countP_filter] at split
  rw [split, ThreadPool.active]
  congr 1 <;>
  · apply List.countP_congr
    intro task _
    cases state : task.state <;> simp [unended, state]

/-- In every reachable state the jobs that wait for a thread or have one are no more than the consumers ever
created and the waits that have timed out; and as long as these are no more than the workers, every job
that waits in an open thread pool can start at once. -/
theorem thread_demand [ExecutorFailureEnforcer ε] (config : ExecutorPoolConfig ε) (clock : Clock)
    (fromJson : β → Except Throwable δ) (waiting : List β) (actions : List (JobQueueAction β η))
    (pool : JobQueueExecutorPool ε (Job δ η))
    (constructed : JobQueueExecutorPool.new config clock = .ok pool)
    (ran : run (step fromJson) (starting pool waiting) actions = some queue) :
    queue.tasks.countP unended ≤ queue.pool.executors.length + queue.deliveries.countP (·.timedOut) ∧
    ((queue.pool.executors.length : ℤ) + queue.deliveries.countP (·.timedOut) ≤ config.poolSize →
      (queue.pool.threads.active : ℤ) + queue.tasks.countP (·.state = .waiting) ≤ config.poolSize ∧
      (queue.pool.threads.isShutdown = false → ∀ task ∈ queue.tasks, task.state = .waiting →
        ∃ next, step fromJson queue .takeTask = some next)) := by
  have working : Working queue :=
    run_invariant (fun _ _ _ working stepped => working_step working stepped) (working_of_new constructed) ran
  have kept : Coherent queue ∧ InTurn queue ∧ Owned queue := by
    refine run_invariant (motive := fun queue => Coherent queue ∧ InTurn queue ∧ Owned queue)
      (fun _ _ _ kept stepped => ⟨coherent_step kept.1 stepped, inTurn_step kept.1 kept.2.1 stepped,
        owned_step kept.1 kept.2.2 stepped⟩) ⟨coherent_of_new constructed, ?_, ?_⟩ ran
    · intro first second earlier later _ read
      contradiction
    · obtain ⟨-, -, rfl⟩ := new_eq_ok constructed
      intro task holder read
      contradiction
  have size : queue.pool.threads.size = config.poolSize.toNat := by
    refine run_invariant (motive := fun queue => queue.pool.threads.size = config.poolSize.toNat)
      (fun _ _ _ same stepped => (step_threadStep stepped).size.trans same) ?_ ran
    obtain ⟨-, -, rfl⟩ := new_eq_ok constructed
    rfl
  have demand := unended_le kept.1 kept.2.1 kept.2.2
  have parts := unended_eq queue
  refine ⟨demand, fun few => ⟨by omega, fun open' task member waits => ?_⟩⟩
  have left : 0 < queue.tasks.countP (·.state = .waiting) :=
    List.countP_pos_iff.mpr ⟨task, member, decide_eq_true waits⟩
  obtain ⟨index, read⟩ := List.mem_iff_getElem?.mp member
  have queued := (working.scheduled index task read).waiting waits open'
  cases line : queue.pool.threads.queue with
  | nil =>
    rw [line] at queued
    contradiction
  | cons first rest =>
    have taken : queue.pool.threads.take (Job.begin queue.handlers) = some _ :=
      take_eq_some.mpr ⟨first, rest, line, by omega, rfl⟩
    exact ⟨_, by rw [step, taken]; rfl⟩

def twoPool : JobQueueExecutorPool MaxFailureEnforcer (Job ℕ ℕ) :=
  { UnstartedJobs.onePool with poolSize := 2, threads := { size := 2 } }

/-- Two workers, each with a job submitted; a thread has taken the first job, and one is left for the
second. -/
def twoJobs : List (JobQueueAction ℕ ℕ) :=
  List.replicate 6 (.pool (.exec 0 {} false)) ++ [.deliver 0 0, .deliver 0 1, .callback 0 .answered,
    .callback 0 .answered, .callback 0 .answered, .callback 1 .answered, .callback 1 .answered,
    .callback 1 .answered, .takeTask]

theorem thread_demand_two : ∃ queue next : JobQueue MaxFailureEnforcer ℕ ℕ ℕ,
    run (step .ok) (starting twoPool [1, 2]) twoJobs = some queue ∧
    queue.tasks.map (·.state) = [.running, .waiting] ∧
    (queue.pool.threads.active : ℤ) + queue.tasks.countP (·.state = .waiting) ≤ 2 ∧
    step .ok queue .takeTask = some next := by
  have served := (thread_demand ⟨"jobs", 2, maxTotalFailures 5⟩ (Stream'.const 0) .ok [1, 2] twoJobs twoPool
    rfl rfl).2 (by decide)
  obtain ⟨next, taken⟩ := served.2 rfl _ (.tail _ (.head _)) rfl
  exact ⟨_, next, rfl, rfl, served.1, taken⟩

end RabbitJobQueue.Soundness.ThreadDemand
