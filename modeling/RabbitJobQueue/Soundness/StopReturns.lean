import RabbitJobQueue.Proofs.WaitingThreads
import RabbitJobQueue.Soundness.QueueDrains
import RabbitJobQueue.Soundness.StopFinal

/-! # A stop returns

The threads of the pool cannot hold each other up: whoever calls whatever how often, each of them has
only so much to execute, and where none can go on, each has ended or waits for the worker threads. In
the job queue the worker threads come to an end as well, if the handlers do, so a stop that has been
called returns.
-/

namespace RabbitJobQueue.Soundness.StopReturns

open Machine Machine.ThreadPool Model Model.JobQueue QueueDrains

section Threads

variable {ε π : Type} [ExecutorFailureEnforcer ε] {threads : PoolThreads ε π}

private theorem quiescent_iff_quiet : Quiescent PoolThreads.step (·.isExec = true) threads ↔
    ∀ activity answers expired, threads.exec activity answers expired = none := by
  constructor
  · exact fun quiescent activity answers expired => quiescent (.exec activity answers expired) rfl
  · intro quiet action isExec
    cases action with
    | exec activity answers expired => exact quiet activity answers expired
    | callStop | callStopNow | close | signal => contradiction

/-- From every state the threads can get to, they execute at most `workload` statements by themselves, and
come to a state where none can go on; in such a state, and in no other, each of them has ended or waits for
the termination of a thread pool that has been shut down. -/
theorem threads_rest (pool : JobQueueExecutorPool ε π) (before : List PoolAction)
    (responds : ExecutorFailureEnforcer.Responds ε)
    (ran : run PoolThreads.step (.starting pool) before = some threads) :
    (∀ later next, (∀ action ∈ later, action.isExec = true) →
      run PoolThreads.step threads later = some next → later.length + next.workload ≤ threads.workload) ∧
    (∃ later next, (∀ action ∈ later, action.isExec = true) ∧
      run PoolThreads.step threads later = some next ∧ Quiescent PoolThreads.step (·.isExec = true) next) ∧
    (Quiescent PoolThreads.step (·.isExec = true) threads ↔
      ∀ code ∈ threads.activities, PoolThreads.Resting threads.pool code) := by
  have inForm : threads.InForm := run_invariant
    (fun _ _ _ inForm stepped => PoolThreads.inForm_step inForm stepped) (PoolThreads.inForm_starting pool) ran
  refine ⟨fun later next isExec ran => ?_, ?_, ?_⟩
  · exact PoolThreads.runsDown.length_le trivial isExec ran
  · exact PoolThreads.runsDown.exists_quiescent (fun _ => id) trivial
  · rw [quiescent_iff_quiet]
    exact PoolThreads.quiet_iff_resting responds inForm

/-- Two threads stop the pool while a third still starts it. -/
theorem threads_rest_stopped : ∃ threads : PoolThreads MaxFailureEnforcer (Job ℕ ℕ),
    run PoolThreads.step (.starting UnstartedJobs.onePool)
      [.exec 0 {} false, .callStopNow true, .callStop true false] = some threads ∧
    ∃ later next, (∀ action ∈ later, action.isExec = true) ∧ run PoolThreads.step threads later = some next ∧
      Quiescent PoolThreads.step (·.isExec = true) next :=
  ⟨_, rfl, (threads_rest UnstartedJobs.onePool [.exec 0 {} false, .callStopNow true, .callStop true false]
    MaxFailureEnforcer.responds rfl).2.1⟩

end Threads

section Code

variable {ε π : Type} {pool next : JobQueueExecutorPool ε π} {answers : ClientAnswers} {expired : Bool}
  {instr : Instr} {more rest : List Instr} {result : Except Throwable (List Instr)}

/-- The statements of `stop` and `stopNow`, none of which throws. -/
def isCalm : Instr → Bool
  | .stopExecutors | .stop _ | .unlock | .shutdown | .shutdownNow | .shutdownCB | .isTerminated
  | .awaitKillAfter _ | .awaitTermination | .returned _ => true
  | _ => false

/-- Code that will return an answer, if it comes to its end. -/
structure Answering (code : List Instr) : Prop where
  calm : ∀ instr ∈ code, isCalm instr = true
  final : ∃ last, code.getLast? = some last ∧ last.isFinal = true

private theorem returns_of_calm [ExecutorFailureEnforcer ε] (calm : isCalm instr = true)
    (ran : (instr.code answers expired).exec pool = some (result, next)) : ∃ more, result = .ok more := by
  cases instr with
  | stopExecutors =>
    rw [Instr.code, Effect.exec_get_bind] at ran
    split at ran
    · cases ran
      exact ⟨_, rfl⟩
    · rw [Effect.exec_modify_bind] at ran
      obtain ⟨_, visit, rfl⟩ := Effect.of_exec_bind_pure ran
      obtain ⟨⟨refs, rfl⟩, -⟩ := JobQueueExecutorPool.detach_spec visit
      exact ⟨_, rfl⟩
  | shutdownCB =>
    rw [Instr.code, Effect.exec_bind_of_ok (by rw [Effect.exec_swallow]; rfl)] at ran
    cases ran
    exact ⟨_, rfl⟩
  | awaitKillAfter blockAfterKill =>
    rw [Instr.code, Effect.exec_get_bind] at ran
    split at ran
    · cases ran
      exact ⟨_, rfl⟩
    · split at ran <;> cases ran
      exact ⟨_, rfl⟩
  | awaitTermination =>
    obtain ⟨_, wait, rfl⟩ := Effect.of_exec_bind_pure ran
    obtain ⟨rfl, -⟩ := JobQueueExecutorPool.awaitTermination_spec wait
    exact ⟨_, rfl⟩
  | returned code => cases ran
  | stop | unlock | shutdown | shutdownNow | isTerminated =>
    cases ran
    exact ⟨_, rfl⟩
  | _ => contradiction

private theorem isShutdown_of_shuts [ExecutorFailureEnforcer ε]
    (shuts : instr = .shutdown ∨ instr = .shutdownNow)
    (ran : (instr.code answers expired).exec pool = some (result, next)) :
    next.threads.isShutdown = true := by
  rcases shuts with rfl | rfl
  · cases ran
    rfl
  · cases ran
    rfl

/-- A calm statement leads to calm ones, and the last statement before the answer to the answer. -/
theorem answering_continues (continues : Instr.Continues pool next instr more)
    (answering : Answering (instr :: rest)) : Answering (more ++ rest) := by
  have calm := answering.calm instr List.mem_cons_self
  have others := fun one member => answering.calm one (List.mem_cons_of_mem instr member)
  obtain ⟨last, read, final⟩ := answering.final
  have calmMore : ∀ one ∈ more, isCalm one = true := by
    cases continues with
    | ends | answers | graceful => simp [isCalm]
    | kills blockAfterKill => cases blockAfterKill <;> simp [isCalm]
    | stops refs few opened closed =>
      intro one member
      rcases List.mem_append.mp member with stops | unlock
      · obtain ⟨ref, -, rfl⟩ := List.mem_map.mp stops
        rfl
      · rw [List.mem_singleton.mp unlock]
        rfl
    | halts | replaces | creates | refuses | completes => contradiction
  refine ⟨fun one member => ?_, ?_⟩
  · rcases List.mem_append.mp member with now | later
    · exact calmMore one now
    · exact others one later
  · cases rest with
    | cons first later =>
      exact ⟨last, by rw [List.getLast?_append_cons, ← read, List.getLast?_cons_cons], final⟩
    | nil =>
      cases read
      rw [List.append_nil]
      cases continues with
      | ends _ heavy inner childless =>
        rw [List.getLast_singleton, inner] at final
        contradiction
      | answers code => exact ⟨_, rfl, rfl⟩
      | graceful blockAfterKill => exact ⟨_, rfl, rfl⟩
      | kills blockAfterKill => cases blockAfterKill <;> exact ⟨_, rfl, rfl⟩
      | halts | replaces | creates | refuses | completes | stops => contradiction

end Code

/-- The queue does what it does by itself, and the threads that have been started go on. -/
def isInternal {β η : Type} : JobQueueAction β η → Bool
  | .pool action => action.isExec
  | action => action.isOwn

variable {ε β δ η : Type} {fromJson : β → Except Throwable δ}
  {queue next called : JobQueue ε β δ η} {action : JobQueueAction β η} {activity : ℕ}

private theorem workload_eq (activities : next.threads.activities = queue.threads.activities)
    (closing : next.pool.closing = queue.pool.closing)
    (length : next.pool.executors.length = queue.pool.executors.length) :
    next.threads.workload = queue.threads.workload := by
  change total _ next.threads.activities +
    (if next.pool.closing then _ else next.pool.executors.length + _ + 2) = _
  rw [activities, closing, length]
  rfl

variable [ExecutorFailureEnforcer ε]

/-- What the queue does by itself leaves the threads of the pool what they have to execute. -/
theorem workload_of_own (own : action.isOwn = true) (stepped : step fromJson queue action = some next) :
    next.threads.workload = queue.threads.workload := by
  cases step_spec stepped with
  | deliver position ex broker body live handed same => subst same; rfl
  | callback ref delivery wait read called =>
    obtain ⟨after, spec⟩ := callback_spec read called
    obtain ⟨threads, same⟩ := spec.threads
    rw [same]
    rfl
  | handleException ref delivery exception read phase same =>
    subst same
    exact workload_eq rfl rfl (List.length_modify ..)
  | takeTask threads taken same => subst same; rfl
  | nextHandler task execution running idle same =>
    subst same
    rw [nextHandler]
    split <;> rfl
  | handlerReturns task execution running inside same => subst same; rfl
  | handlerThrows task execution running inside same => subst same; rfl
  | publish | onJob | pool => contradiction

/-- Statements of the pool's threads may bring messages back to the broker, but there are only so many
of them; between them the queue runs down. -/
theorem descends (fromJson : β → Except Throwable δ) :
    Descends (step fromJson) (isInternal · = true) (Working : JobQueue ε β δ η → Prop)
      (Prod.Lex (· < ·) (· < ·)) fun queue => (queue.threads.workload, queue.work) where
  kept _ _ _ working _ stepped := working_step working stepped
  falls queue action next working internal stepped := by
    by_cases own : action.isOwn = true
    · rw [workload_of_own own stepped]
      exact .right _ (step_work working own stepped)
    · cases action with
      | pool action =>
        cases step_spec stepped with
        | pool _ threads other moved same =>
          subst same
          exact .left _ _ (PoolThreads.runsDown.falls _ _ _ trivial internal moved)
      | publish | onJob => contradiction
      | deliver | callback | handleException | takeTask | nextHandler | handlerEnds => exact absurd rfl own

private theorem isShutdown_step (stepped : step fromJson queue action = some next)
    (shut : queue.pool.threads.isShutdown = true) : next.pool.threads.isShutdown = true := by
  have threads := step_threadStep stepped
  generalize next.pool.threads = after at threads ⊢
  cases threads with
  | winds winds => exact winds.isShutdown shut
  | submitted ref delivery dispatch task read phase submitted =>
    obtain ⟨open', -⟩ := submit_eq_some.mp submitted
    rw [shut] at open'
    contradiction
  | taken taken =>
    obtain ⟨task, rest, -, -, rfl⟩ := take_eq_some.mp taken
    exact shut
  | cancelled | advanced | finished => exact shut

private theorem inForm_step (inForm : queue.threads.InForm)
    (stepped : step fromJson queue action = some next) : next.threads.InForm := by
  rcases step_threads stepped with same | ⟨poolAction, -, moved⟩
  · intro code member
    rw [same] at member
    exact (inForm code member).mono (isShutdown_step stepped)
  · exact PoolThreads.inForm_step inForm moved

/-- The thread will return an answer, and has shut down the thread pool or will do so before. -/
def WillReturn (activity : ℕ) (queue : JobQueue ε β δ η) : Prop :=
  ∃ code, queue.threads.activities[activity]? = some code ∧ Answering code ∧
    (.shutdown ∈ code ∨ .shutdownNow ∈ code ∨ queue.pool.threads.isShutdown = true)

private theorem willReturn_call {call : PoolAction} (isCall : StopFinal.isStop call = true)
    (stepped : step fromJson called (.pool call) = some next) :
    WillReturn called.threads.activities.length next := by
  cases call with
  | callStop block blockAfterKill =>
    cases stepped
    refine ⟨_, List.getElem?_concat_length .., ⟨?_, ?_⟩, .inl ?_⟩
    · cases block <;> simp [Instr.stopCode, isCalm]
    · cases block <;> exact ⟨_, rfl, rfl⟩
    · simp [Instr.stopCode]
  | callStopNow block =>
    cases stepped
    refine ⟨_, List.getElem?_concat_length .., ⟨?_, ?_⟩, .inr (.inl ?_)⟩
    · cases block <;> simp [Instr.stopNowCode, isCalm]
    · cases block <;> exact ⟨_, rfl, rfl⟩
    · simp [Instr.stopNowCode]
  | close | signal | exec => contradiction

private theorem willReturn_step (will : WillReturn activity queue)
    (stepped : step fromJson queue action = some next) : WillReturn activity next := by
  obtain ⟨code, read, answering, shuts⟩ := will
  have still := isShutdown_step stepped
  have stays (same : next.threads.activities[activity]? = some code) : WillReturn activity next :=
    ⟨code, same, answering, shuts.imp_right (.imp_right still)⟩
  rcases step_threads stepped with same | ⟨poolAction, rfl, moved⟩
  · exact stays (same ▸ read)
  rcases PoolThreads.step_activity moved read with
    same | ⟨answers, expired, instr, rest, result, -, rfl, ran, after⟩
  · exact stays same
  obtain ⟨more, rfl⟩ := returns_of_calm (answering.calm instr List.mem_cons_self) ran
  refine ⟨_, after, answering_continues (Instr.code_continues ran) answering, ?_⟩
  rcases shuts with shuts | shuts | shut
  · rcases List.mem_cons.mp shuts with rfl | later
    · exact .inr (.inr (isShutdown_of_shuts (.inl rfl) ran))
    · exact .inl (List.mem_append_right _ later)
  · rcases List.mem_cons.mp shuts with rfl | later
    · exact .inr (.inr (isShutdown_of_shuts (.inr rfl) ran))
    · exact .inr (.inl (List.mem_append_right _ later))
  · exact .inr (.inr (still shut))

private theorem quiescent_own (quiescent : Quiescent (step fromJson) (isInternal · = true) queue) :
    Quiescent (step fromJson) (·.isOwn = true) queue := by
  intro action own
  apply quiescent action
  cases action with
  | pool action => contradiction
  | _ => exact own

private theorem quiet_of_quiescent (quiescent : Quiescent (step fromJson) (isInternal · = true) queue)
    (activity : ℕ)
    (answers : ClientAnswers) (expired : Bool) : queue.threads.exec activity answers expired = none := by
  have refused : (queue.threads.exec activity answers expired).map queue.withPoolThreads = none :=
    quiescent (.pool (.exec activity answers expired)) rfl
  rwa [Option.map_eq_none_iff] at refused

/-- The call has returned, the jobs and the deliveries are over, and no thread of the pool is left. -/
structure Returned (activity : ℕ) (queue : JobQueue ε β δ η) : Prop where
  answered : ∃ code, queue.threads.activities[activity]? = some [.returned code]
  terminated : queue.pool.threads.isTerminated = true
  settled : ∀ delivery ∈ queue.deliveries, delivery.phase.isOver = true
  ended : ∀ code ∈ queue.threads.activities, code = [] ∨ ∃ answer, code = [.returned answer]

private theorem returned_of_quiescent (responds : ExecutorFailureEnforcer.Responds ε)
    (working : Working queue) (inForm : queue.threads.InForm) (will : WillReturn activity queue)
    (quiescent : Quiescent (step fromJson) (isInternal · = true) queue) : Returned activity queue := by
  have own := quiescent_own quiescent
  obtain ⟨empty, idle⟩ := idle_of_atRest working (atRest_of_quiescent own)
  have resting := (PoolThreads.quiet_iff_resting responds inForm).mp (quiet_of_quiescent quiescent)
  have ended : ∀ code ∈ queue.threads.activities, code = [] ∨ ∃ answer, code = [.returned answer] := by
    intro code member
    rcases resting code member with nothing | answered | ⟨-, shut, alive⟩
    · exact .inl nothing
    · exact .inr answered
    · -- nothing keeps a thread pool that has been shut down from terminating
      rw [isTerminated_iff.mpr ⟨shut, empty, idle⟩] at alive
      contradiction
  obtain ⟨code, read, answering, shuts⟩ := will
  obtain ⟨answer, rfl⟩ : ∃ answer, code = [.returned answer] := by
    rcases ended code (List.mem_of_getElem? read) with rfl | answered
    · obtain ⟨last, impossible, -⟩ := answering.final
      contradiction
    · exact answered
  have shut : queue.pool.threads.isShutdown = true := by simpa using shuts
  refine ⟨⟨answer, read⟩, isTerminated_iff.mpr ⟨shut, empty, idle⟩, fun delivery member => ?_, ended⟩
  obtain ⟨ref, known⟩ := List.mem_iff_getElem?.mp member
  exact over_of_quiescent working own known

/-- Whatever happens before and after the call of a stop: when nobody calls, publishes or closes anything
any more and every handler comes back, the queue does not go on for ever and comes to rest, and at rest the
stop has returned, all jobs and deliveries are over, and no thread waits. -/
theorem stop_returns (config : ExecutorPoolConfig ε) (clock : Clock) (fromJson : β → Except Throwable δ)
    (waiting : List β) (before middle : List (JobQueueAction β η)) (call : PoolAction)
    (pool : JobQueueExecutorPool ε (Job δ η)) (responds : ExecutorFailureEnforcer.Responds ε)
    (constructed : JobQueueExecutorPool.new config clock = .ok pool)
    (reached : run (step fromJson) (starting pool waiting) before = some called)
    (isCall : StopFinal.isStop call = true)
    (ran : run (step fromJson) called (.pool call :: middle) = some queue) :
    (∀ (states : ℕ → JobQueue ε β δ η) (taken : ℕ → JobQueueAction β η), states 0 = queue →
      ¬ ∀ n, isInternal (taken n) = true ∧ step fromJson (states n) (taken n) = some (states (n + 1))) ∧
    (∃ later final, (∀ action ∈ later, isInternal action = true) ∧
      run (step fromJson) queue later = some final ∧
      Quiescent (step fromJson) (isInternal · = true) final) ∧
    (Quiescent (step fromJson) (isInternal · = true) queue →
      Returned called.threads.activities.length queue) := by
  have whole := run_append_eq_some.mpr ⟨called, reached, ran⟩
  have working : Working queue := run_invariant (fun _ _ _ working stepped => working_step working stepped)
    (working_of_new constructed) whole
  have inForm : queue.threads.InForm := run_invariant
    (motive := fun queue : JobQueue ε β δ η => queue.threads.InForm)
    (fun _ _ _ inForm stepped => inForm_step inForm stepped) (PoolThreads.inForm_starting pool) whole
  have ends : WellFounded (Prod.Lex (· < ·) (· < ·) : ℕ × ℕ → ℕ × ℕ → Prop) :=
    (Prod.lex Nat.lt_wfRel Nat.lt_wfRel).wf
  refine ⟨fun states taken start => ?_, ?_, fun quiescent => ?_⟩
  · exact (descends fromJson).not_endless ends states taken (start ▸ working)
  · exact (descends fromJson).exists_quiescent ends (fun _ => id) working
  · obtain ⟨_, stepped, later⟩ := run_cons_eq_some.mp ran
    have will : WillReturn called.threads.activities.length queue := run_invariant
      (fun _ _ _ will stepped => willReturn_step will stepped) (willReturn_call isCall stepped) later
    exact returned_of_quiescent responds working inForm will quiescent

/-- A job is running when `stop` is called; it is left to return, or to be killed. -/
theorem stop_returns_running : ∃ called queue : JobQueue MaxFailureEnforcer ℕ ℕ ℕ,
    run (step .ok) (starting UnstartedJobs.onePool [1]) UnstartedJobs.firstJob = some called ∧
    run (step .ok) called [.pool (.callStop true true)] = some queue ∧
    ∃ later final, (∀ action ∈ later, isInternal action = true) ∧
      run (step .ok) queue later = some final ∧ Quiescent (step .ok) (isInternal · = true) final :=
  ⟨_, _, rfl, rfl, (stop_returns ⟨"jobs", 1, maxTotalFailures 5⟩ (Stream'.const 0) .ok [1]
    UnstartedJobs.firstJob [] (.callStop true true) UnstartedJobs.onePool MaxFailureEnforcer.responds rfl rfl rfl
    rfl).2.1⟩

end RabbitJobQueue.Soundness.StopReturns
