import RabbitJobQueue.Proofs.CallbackOrder
import RabbitJobQueue.Proofs.JobQueueWork
import RabbitJobQueue.Soundness.AtLeastOnce
import RabbitJobQueue.Soundness.UnstartedJobs

/-! # The job queue drains

Whatever has happened to a job queue, it comes to rest once nobody publishes, registers a handler or
touches the pool, and every handler it calls returns or throws: no order of its own steps is longer than
its work. At rest no job is left, the client is done with every delivery, and the broker holds none; if a
consumer is left, every message the broker has ever accepted has been removed. No wait has to run out for
that, except where `shutdownNow` has dropped a job from the task queue: its callback stays in
`future.get`, and the later deliveries of its channel stay behind it, until the time limit passes.
-/

namespace RabbitJobQueue.Soundness.QueueDrains

open Machine Model Model.JobQueue JobQueueExecutorPool ThreadPool AtLeastOnce

variable {ε β δ η : Type} {fromJson : β → Except Throwable δ}
  {queue next target : JobQueue ε β δ η} {ref : DeliveryRef} {delivery : Delivery β δ}
  {action : JobQueueAction β η}

/-- Nothing the queue can do by itself is enabled, a wait running out or being interrupted apart. -/
def AtRest [ExecutorFailureEnforcer ε] (fromJson : β → Except Throwable δ) (queue : JobQueue ε β δ η) : Prop :=
  Quiescent (step fromJson) (·.isPatient = true) queue

/-- The callback waits for a job that `shutdownNow` has dropped from the task queue. -/
def Stranded (queue : JobQueue ε β δ η) (delivery : Delivery β δ) : Prop :=
  (∃ dispatch, delivery.phase = .awaiting dispatch) ∧ queue.pool.threads.isShutdown = true ∧
    ∃ (task : ℕ) (found : PoolTask (Job δ η)), delivery.future = some task ∧
      queue.tasks[task]? = some found ∧ found.state = .waiting ∧ found.future = .pending

private theorem future_of_timedOut (working : Working queue) (read : queue.deliveries[ref]? = some delivery)
    {dispatch : δ}
    (phase : delivery.phase = .timedOut dispatch) : ∃ task, delivery.future = some task := by
  have chronicle := (working.coherent.recorded ref delivery read).chronicle
  rw [Chronicle, phase] at chronicle
  obtain ⟨-, -, -, -, task, future, -⟩ := chronicle
  exact ⟨task, future⟩

private theorem exists_earlier_of_not_isNext {ex : ExecutorRef} (blocked : queue.isNext ref ex = false) :
    ∃ other earlier, other < ref ∧ queue.deliveries[other]? = some earlier ∧ earlier.channel = ex ∧
      earlier.phase.isOver = false := by
  rw [isNext, List.all_eq_false] at blocked
  obtain ⟨earlier, member, unfinished⟩ := blocked
  obtain ⟨other, read⟩ := List.mem_iff_getElem?.mp member
  rw [List.getElem?_take] at read
  split at read
  · next before => exact ⟨other, earlier, before, read, by simpa using unfinished⟩
  · contradiction

section

variable [ExecutorFailureEnforcer ε]

/-- A queue at rest has no job left to start, and none on a thread. -/
theorem idle_of_atRest (working : Working queue) (rest : AtRest fromJson queue) :
    queue.pool.threads.queue = [] ∧ queue.pool.threads.active = 0 := by
  rcases running_or_takes_or_idle working.staffed (Job.begin queue.handlers) with
    ⟨task, found, read, active⟩ | ⟨threads, taken⟩ | idle
  · exfalso
    obtain ⟨execution, carried⟩ :=
      Option.isSome_iff_exists.mp ((working.scheduled task found read).running active)
    have running : queue.running task = some execution := running_eq_some.mpr ⟨found, read, active, carried⟩
    cases inside : execution.running with
    | none =>
      have refused := rest (.nextHandler task) rfl
      simp [step, running, inside] at refused
    | some handler =>
      have refused := rest (.handlerEnds task true) rfl
      simp [step, running, inside] at refused
  · have refused := rest .takeTask rfl
    simp [step, taken] at refused
  · exact idle

private theorem callback_refused (rest : AtRest fromJson queue)
    (read : queue.deliveries[ref]? = some delivery) :
    callback fromJson queue ref delivery .answered = none := by
  have refused := rest (.callback ref .answered) rfl
  rwa [step, read, Option.bind_some] at refused

/-- The answer a callback waits for is there, unless its job is stranded. -/
theorem stranded_of_waiting (working : Working queue) (rest : AtRest fromJson queue) {dispatch : δ}
    (read : queue.deliveries[ref]? = some delivery) (phase : delivery.phase = .awaiting dispatch) :
    Stranded queue delivery := by
  have recorded := working.coherent.recorded ref delivery read
  have chronicle := recorded.chronicle
  rw [Chronicle, phase] at chronicle
  obtain ⟨-, found, task, future, known, -⟩ := chronicle
  have answer : queue.answer delivery = some found.future := by
    rw [JobQueue.answer, future, Option.bind_some, known, Option.map_some]
  have refused := callback_refused rest read
  rw [callback, phase] at refused
  dsimp only at refused
  have pending : found.future = .pending := by
    rw [answer] at refused
    cases state : found.future <;> rw [state] at refused <;> first | rfl | contradiction
  obtain ⟨empty, idle⟩ := idle_of_atRest working rest
  have placed := working.scheduled task found known
  have state : found.state = .waiting := by
    cases state : found.state with
    | waiting => rfl
    | running => exact absurd state (active_eq_zero.mp idle found (List.mem_of_getElem? known))
    | ended => exact absurd pending (placed.ended state)
  refine ⟨⟨dispatch, phase⟩, ?_, task, found, future, known, state, pending⟩
  by_contra open'
  have queued := placed.waiting state (eq_false_of_ne_true open')
  rw [empty] at queued
  contradiction

/-- At rest the client is done with a delivery, or the delivery is stuck at or behind a stranded one of
its channel. -/
theorem over_or_stuck (working : Working queue) (rest : AtRest fromJson queue)
    (read : queue.deliveries[ref]? = some delivery) : delivery.phase.isOver = true ∨
      ∃ other stranded, other ≤ ref ∧ queue.deliveries[other]? = some stranded ∧
        stranded.channel = delivery.channel ∧ Stranded queue stranded := by
  induction ref using Nat.strongRecOn generalizing delivery with
  | ind ref ih =>
    have refused := callback_refused rest read
    rw [callback] at refused
    cases phase : delivery.phase with
    | received =>
      simp only [phase] at refused
      split at refused
      · split at refused <;> contradiction
      · next blocked =>
        obtain ⟨other, earlier, before, known, channel, unfinished⟩ :=
          exists_earlier_of_not_isNext (eq_false_of_ne_true blocked)
        rcases ih other before known with ended | ⟨first, stranded, at', readFirst, same, strands⟩
        · rw [ended] at unfinished
          contradiction
        · exact .inr ⟨first, stranded, Nat.le_trans at' (Nat.le_of_lt before), readFirst,
            same.trans channel, strands⟩
    | awaiting dispatch =>
      exact .inr ⟨ref, delivery, Nat.le_refl _, read, rfl, stranded_of_waiting working rest read phase⟩
    | timedOut dispatch =>
      obtain ⟨task, future⟩ := future_of_timedOut working read phase
      simp [phase, future] at refused
    | threw exception =>
      have handled := rest (.handleException ref) rfl
      simp [step, read, phase] at handled
    | accepted =>
      simp only [phase] at refused
      split at refused <;> contradiction
    | decoded dispatch =>
      simp only [phase] at refused
      split at refused <;> contradiction
    | completed =>
      simp only [phase] at refused
      split at refused <;> contradiction
    | cancelled dispatch =>
      simp only [phase] at refused
      split at refused <;> contradiction
    | ackTried dispatch =>
      simp only [phase] at refused
      contradiction
    | returned exit => exact .inl rfl
    | failed exception => exact .inl rfl

end

/-- A delivery that is over is acknowledged, or its channel is closed. -/
theorem acks_of_over_of_open (working : Working queue) (read : queue.deliveries[ref]? = some delivery)
    (ended : delivery.phase.isOver = true) (opened : queue.pool.isOpen delivery.channel = true) :
    delivery.acks ≠ 0 := by
  intro unacked
  have chronicle := (working.coherent.recorded ref delivery read).chronicle
  have tried := working.tried delivery (List.mem_of_getElem? read)
  rw [Chronicle] at chronicle
  cases phase : delivery.phase with
  | returned exit =>
    rw [phase] at chronicle
    cases exit with
    | channelClosed =>
      rw [opened] at chronicle
      exact absurd chronicle.2.2 (by decide)
    | acknowledged => exact absurd (chronicle.1.symm.trans unacked) (by decide)
    | timedOut =>
      rw [tried (.inr phase) unacked] at opened
      contradiction
  | failed exception =>
    rw [phase, opened] at chronicle
    exact absurd chronicle.2.2 (by decide)
  | _ => rw [phase] at ended; contradiction

/-- Nothing is left of what has been delivered, and nothing at all where a consumer is left. -/
structure Drained (published : List β) (queue : JobQueue ε β δ η) : Prop where
  queued : queue.pool.threads.queue = []
  active : queue.pool.threads.active = 0
  ended : ∀ delivery ∈ queue.deliveries, delivery.phase.isOver = true
  unacked : queue.broker.unacked = []
  removed : ∀ ex, queue.pool.isLive ex = true →
    queue.broker.ready = [] ∧ (queue.broker.removed.map (·.message)).Perm published

section

variable [ExecutorFailureEnforcer ε]

theorem atRest_of_quiescent (quiescent : Quiescent (step fromJson) (·.isOwn = true) queue) :
    AtRest fromJson queue := by
  intro action patient
  apply quiescent action
  cases action with
  | callback ref wait => rfl
  | _ => exact patient

/-- Time passes, so that no delivery stays stranded. -/
theorem over_of_quiescent (working : Working queue)
    (quiescent : Quiescent (step fromJson) (·.isOwn = true) queue)
    (read : queue.deliveries[ref]? = some delivery) : delivery.phase.isOver = true := by
  rcases over_or_stuck working (atRest_of_quiescent quiescent) read with
    ended | ⟨other, stranded, -, known, -, ⟨dispatch, phase⟩, -, task, found, future, readTask, -, pending⟩
  · exact ended
  · have refused := quiescent (.callback other .expired) rfl
    have answer : queue.answer stranded = some .pending := by
      rw [answer, future, Option.bind_some, readTask, Option.map_some, pending]
    simp [step, known, callback, phase, answer] at refused

private theorem drained_of_over {published : List β} (working : Working queue) (rest : AtRest fromJson queue)
    (ended : ∀ delivery ∈ queue.deliveries, delivery.phase.isOver = true)
    (inventory : queue.broker.inventory.Perm published) : Drained published queue := by
  obtain ⟨queued, active⟩ := idle_of_atRest working rest
  have unacked : queue.broker.unacked = [] := by
    apply List.eq_nil_iff_forall_not_mem.mpr
    intro held member
    obtain ⟨delivery, read, channel, -, acks, opened⟩ := working.custody.held held member
    rw [← channel] at opened
    exact acks_of_over_of_open working read (ended delivery (List.mem_of_getElem? read)) opened acks
  refine ⟨queued, active, ended, unacked, fun ex live => ?_⟩
  have ready : queue.broker.ready = [] := by
    cases ready : queue.broker.ready with
    | nil => rfl
    | cons first later =>
      have refused := rest (.deliver 0 ex) rfl
      simp [step, live, Broker.deliver, ready] at refused
  refine ⟨ready, ?_⟩
  simpa [Broker.inventory, ready, unacked] using inventory

private theorem dispatched_of_own {actions : List (JobQueueAction β η)}
    (own : ∀ action ∈ actions, action.isOwn = true) : dispatched actions = [] := by
  apply List.filterMap_eq_nil_iff.mpr
  intro action member
  cases action with
  | publish body =>
    have mine := own _ member
    contradiction
  | _ => rfl

private theorem isOwn_of_isPatient (patient : action.isPatient = true) : action.isOwn = true := by
  cases action with
  | callback ref wait => rfl
  | _ => exact patient

/-- Only the pool's own methods shut the worker threads down. -/
theorem isShutdown_of_own (own : action.isOwn = true) (stepped : step fromJson queue action = some next) :
    next.pool.threads.isShutdown = queue.pool.threads.isShutdown := by
  cases step_spec stepped with
  | callback ref delivery wait read called =>
    obtain ⟨after, -, threads⟩ := callback_threads read called
    generalize next.pool.threads = later at threads
    cases threads with
    | same => rfl
    | submitted submitted phase awaiting =>
      obtain ⟨-, -, rfl⟩ := submit_eq_some.mp submitted
      rfl
    | cancelled task => rfl
  | takeTask threads taken same =>
    subst same
    obtain ⟨task, rest, -, -, rfl⟩ := take_eq_some.mp taken
    rfl
  | nextHandler task execution running idle same =>
    subst same
    rw [nextHandler]
    split <;> rfl
  | deliver | handleException | handlerReturns | handlerThrows => subst_vars; rfl
  | publish | onJob | pool => contradiction

/-- A queue whose pool has not been shut down drains without a wait running out. -/
theorem quiescent_of_atRest (working : Working queue) (open' : queue.pool.threads.isShutdown = false)
    (rest : AtRest fromJson queue) : Quiescent (step fromJson) (·.isOwn = true) queue := by
  intro action own
  cases action with
  | callback ref wait =>
    rw [step]
    cases read : queue.deliveries[ref]? with
    | none => rfl
    | some delivery =>
      rcases over_or_stuck working rest read with ended | ⟨-, stranded, -, -, -, -, shut, -⟩
      · rw [Option.bind_some, callback]
        cases phase : delivery.phase with
        | returned exit => rfl
        | failed exception => rfl
        | _ => simp [phase, Phase.isOver] at ended
      · rw [open'] at shut
        contradiction
  | _ => exact rest _ own

/-- Left to itself, the job queue comes to rest, whatever the order of its steps, and is drained then. -/
theorem drains (config : ExecutorPoolConfig ε) (clock : Clock) (fromJson : β → Except Throwable δ)
    (waiting : List β) (actions : List (JobQueueAction β η)) (pool : JobQueueExecutorPool ε (Job δ η))
    (constructed : JobQueueExecutorPool.new config clock = .ok pool)
    (ran : run (step fromJson) (starting pool waiting) actions = some queue) :
    (∀ more target, (∀ action ∈ more, action.isOwn = true) → run (step fromJson) queue more = some target →
      more.length ≤ queue.work ∧
        (Quiescent (step fromJson) (·.isOwn = true) target →
          Drained (waiting ++ dispatched actions) target)) ∧
      ∃ more target, (∀ action ∈ more, action.isOwn = true) ∧
        (queue.pool.threads.isShutdown = false → ∀ action ∈ more, action.isPatient = true) ∧
        run (step fromJson) queue more = some target ∧
        Quiescent (step fromJson) (·.isOwn = true) target := by
  have working : Working queue :=
    run_invariant (fun _ _ _ working stepped => working_step working stepped) (working_of_new constructed) ran
  obtain ⟨-, -, rfl⟩ := new_eq_ok constructed
  have down := runsDown (ε := ε) (η := η) fromJson
  refine ⟨fun more target own continued => ⟨?_, fun quiescent => ?_⟩, ?_⟩
  · have bound := down.length_le working own continued
    omega
  · have still := down.invariant_of_run working own continued
    have inventory := inventory_of_run (run_append_eq_some.mpr ⟨queue, ran, continued⟩)
    rw [dispatched, List.filterMap_append, ← dispatched, ← dispatched, dispatched_of_own own,
      List.append_nil] at inventory
    apply drained_of_over still (atRest_of_quiescent quiescent)
    · intro delivery member
      obtain ⟨ref, read⟩ := List.mem_iff_getElem?.mp member
      exact over_of_quiescent still quiescent read
    · simpa [starting, Broker.inventory] using inventory
  · cases open' : queue.pool.threads.isShutdown with
    | true =>
      obtain ⟨more, target, own, continued, quiescent⟩ := down.exists_quiescent (fun _ => id) working
      exact ⟨more, target, own, fun impossible => by contradiction, continued, quiescent⟩
    | false =>
      obtain ⟨more, target, patient, continued, rest⟩ :=
        down.exists_quiescent (fun _ => isOwn_of_isPatient) working
      have own : ∀ action ∈ more, action.isOwn = true := fun action member =>
        isOwn_of_isPatient (patient action member)
      have still := down.invariant_of_run working own continued
      have stillOpen : target.pool.threads.isShutdown = false :=
        run_invariant_along (motive := fun reached => reached.pool.threads.isShutdown = false)
          (fun _ _ _ before own stepped => (isShutdown_of_own own stepped).trans before)
          open' (.of_forall own) continued
      exact ⟨more, target, own, fun _ => patient, continued, quiescent_of_atRest still stillOpen rest⟩

/-- Where no wait runs out, a delivery stays unfinished exactly if it is stranded or behind one that is. -/
theorem unfinished_iff_stuck (config : ExecutorPoolConfig ε) (clock : Clock)
    (fromJson : β → Except Throwable δ) (waiting : List β) (actions : List (JobQueueAction β η))
    (pool : JobQueueExecutorPool ε (Job δ η)) (constructed : JobQueueExecutorPool.new config clock = .ok pool)
    (ran : run (step fromJson) (starting pool waiting) actions = some queue) (rest : AtRest fromJson queue)
    (ref : DeliveryRef) (delivery : Delivery β δ) (read : queue.deliveries[ref]? = some delivery) :
    delivery.phase.isOver = false ↔ ∃ other stranded, other ≤ ref ∧
      queue.deliveries[other]? = some stranded ∧ stranded.channel = delivery.channel ∧
      Stranded queue stranded := by
  have working : Working queue :=
    run_invariant (fun _ _ _ working stepped => working_step working stepped) (working_of_new constructed) ran
  have inOrder := inOrder_of_run ran
  constructor
  · intro unfinished
    exact (over_or_stuck working rest read).resolve_left (by rw [unfinished]; decide)
  · rintro ⟨other, stranded, at', known, channel, ⟨dispatch, phase⟩, -⟩
    by_contra ended
    rw [Bool.not_eq_false] at ended
    rcases Nat.lt_or_eq_of_le at' with before | rfl
    · have begun : delivery.phase ≠ .received := by
        intro received
        rw [received] at ended
        contradiction
      have finished := inOrder other ref stranded delivery before known read channel begun
      rw [phase] at finished
      contradiction
    · cases known.symm.trans read
      rw [phase] at ended
      contradiction

end

/-- What is left to do for the first job once its handler is called. -/
def finishJob : List (JobQueueAction ℕ ℕ) :=
  [.handlerEnds 0 true, .nextHandler 0, .callback 0 .answered, .callback 0 .answered]

/-- The first job is on a thread, and four steps of its own bring the queue to rest. -/
theorem drains_first : ∃ queue target : JobQueue MaxFailureEnforcer ℕ ℕ ℕ,
    run (step .ok) (starting UnstartedJobs.onePool [1]) UnstartedJobs.firstJob = some queue ∧
    run (step .ok) queue finishJob = some target ∧ finishJob.length ≤ queue.work ∧
    target.broker.removed.map (·.message) = [1] ∧ target.work = 0 :=
  ⟨_, _, rfl, rfl, ((drains ⟨"jobs", 1, maxTotalFailures 5⟩ (Stream'.const 0) .ok [1] UnstartedJobs.firstJob
    UnstartedJobs.onePool rfl rfl).1 finishJob _ (by decide) rfl).1, rfl, rfl⟩

/-- A job is submitted, and the pool is stopped at once before a thread has taken it. -/
def stopped : List (JobQueueAction ℕ ℕ) :=
  [.pool (.exec 0 {} false), .pool (.exec 0 {} false), .pool (.exec 0 {} false), .deliver 0 0,
    .callback 0 .answered, .callback 0 .answered, .callback 0 .answered, .pool (.callStopNow false),
    .pool (.exec 1 {} false), .pool (.exec 1 {} false), .pool (.exec 1 {} false), .pool (.exec 1 {} false)]

/-- With no consumer left, and every callback waiting for a job that has been dropped, nothing is enabled. -/
theorem atRest_of_dropped [ExecutorFailureEnforcer ε]
    (dead : ∀ executor ∈ queue.pool.executors, executor.isLive = false)
    (empty : queue.pool.threads.queue = [])
    (dropped : ∀ task ∈ queue.tasks, task.state = .waiting ∧ task.future = .pending)
    (awaiting : ∀ delivery ∈ queue.deliveries, ∃ dispatch, delivery.phase = .awaiting dispatch) :
    AtRest fromJson queue := by
  have unlive : ∀ ex, queue.pool.isLive ex = false := by
    intro ex
    by_contra live
    obtain ⟨executor, read, alive⟩ := isLive_iff.mp (eq_true_of_ne_false live)
    rw [dead executor (List.mem_of_getElem? read)] at alive
    contradiction
  have idle : ∀ task, queue.running task = none := by
    intro task
    by_contra busy
    obtain ⟨execution, running⟩ := Option.ne_none_iff_exists'.mp busy
    obtain ⟨found, read, active, -⟩ := running_eq_some.mp running
    rw [(dropped found (List.mem_of_getElem? read)).1] at active
    contradiction
  intro action patient
  cases action with
  | deliver position ex => simp [step, unlive]
  | callback ref wait =>
    cases of_decide_eq_true patient
    rw [step]
    cases read : queue.deliveries[ref]? with
    | none => rfl
    | some delivery =>
      obtain ⟨dispatch, phase⟩ := awaiting delivery (List.mem_of_getElem? read)
      rw [Option.bind_some, callback, phase]
      dsimp only
      cases answered : queue.answer delivery with
      | none => rfl
      | some answer =>
        obtain ⟨found, got, same⟩ := Option.map_eq_some_iff.mp answered
        obtain ⟨task, -, readTask⟩ := Option.bind_eq_some_iff.mp got
        rw [(dropped found (List.mem_of_getElem? readTask)).2] at same
        rw [← same]
  | handleException ref =>
    rw [step]
    cases read : queue.deliveries[ref]? with
    | none => rfl
    | some delivery =>
      obtain ⟨dispatch, phase⟩ := awaiting delivery (List.mem_of_getElem? read)
      rw [Option.bind_some, phase]
  | takeTask => simp [step, ThreadPool.take, empty]
  | nextHandler task => simp [step, idle]
  | handlerEnds task normally => simp [step, idle]
  | publish | onJob | pool => contradiction

/-- The callback of the dropped job is stranded. -/
theorem unfinished_iff_stuck_stopped : ∃ (queue : JobQueue MaxFailureEnforcer ℕ ℕ ℕ) (delivery : Delivery ℕ ℕ),
    run (step .ok) (starting UnstartedJobs.onePool [1]) stopped = some queue ∧
    queue.deliveries = [delivery] ∧ delivery.phase = .awaiting 1 ∧
    (delivery.phase.isOver = false ↔ ∃ other stranded, other ≤ 0 ∧
      queue.deliveries[other]? = some stranded ∧ stranded.channel = delivery.channel ∧
      Stranded queue stranded) := by
  refine ⟨_, _, rfl, rfl, rfl, unfinished_iff_stuck ⟨"jobs", 1, maxTotalFailures 5⟩ (Stream'.const 0) .ok [1]
    stopped UnstartedJobs.onePool rfl rfl ?_ 0 _ rfl⟩
  apply atRest_of_dropped
  · decide
  · rfl
  · decide
  · intro delivery member
    cases List.mem_singleton.mp member
    exact ⟨1, rfl⟩

end RabbitJobQueue.Soundness.QueueDrains
