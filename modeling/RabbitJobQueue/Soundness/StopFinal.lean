import RabbitJobQueue.Proofs.JobQueueSchedule
import RabbitJobQueue.Soundness.GracefulStop

/-! # What the return of a stop says about the jobs

`stop` answers `Graceful` only when the thread pool has terminated, and a stop that is told to wait
returns only then. From there on the worker threads are out of the game: nothing is queued, started or
moved by any later step, whatever the broker still delivers. If in addition nothing has dropped the
queue, every job ever submitted has come to its end.
-/

namespace RabbitJobQueue.Soundness.StopFinal

open Machine Machine.ThreadPool Model Model.JobQueue

variable {ε β δ η : Type} {fromJson : β → Except Throwable δ}
  {queue next called stopped final : JobQueue ε β δ η} {action : JobQueueAction β η}

/-- What a worker thread has done for a task. -/
def progress (task : PoolTask (Job δ η)) : Job δ η × TaskState := (task.payload, task.state)

/-- The step is one of a worker thread. -/
def isWork : JobQueueAction β η → Bool
  | .takeTask | .nextHandler _ | .handlerEnds _ _ => true
  | _ => false

private theorem progress_settle (answer : FutureState) (task : PoolTask (Job δ η)) :
    progress (task.settle answer) = progress task := by
  simp [progress]

private theorem winds_terminated {π : Type} {forced : Prop} {before after : ThreadPool π}
    (winds : Winds forced before after) (terminated : before.isTerminated = true) :
    after.isTerminated = true ∧ after.tasks = before.tasks := by
  obtain ⟨shut, empty, idle⟩ := isTerminated_iff.mp terminated
  cases winds with
  | same => exact ⟨terminated, rfl⟩
  | shutdown => exact ⟨isTerminated_iff.mpr ⟨rfl, empty, idle⟩, rfl⟩
  | shutdownNow drops => exact ⟨isTerminated_iff.mpr ⟨rfl, rfl, idle⟩, rfl⟩

/-- Nothing is on a thread of a terminated pool. -/
theorem running_eq_none (terminated : queue.pool.threads.isTerminated = true) (task : ℕ) :
    queue.running task = none := by
  obtain ⟨-, -, idle⟩ := isTerminated_iff.mp terminated
  cases running : queue.running task with
  | none => rfl
  | some execution =>
    obtain ⟨found, read, active, -⟩ := running_eq_some.mp running
    exact absurd active (active_eq_zero.mp idle found (List.mem_of_getElem? read))

private theorem cancel_terminated {threads : ThreadPool (Job δ η)} (task : ℕ)
    (terminated : threads.isTerminated = true) : (threads.cancel task).isTerminated = true ∧
      (threads.cancel task).tasks.map progress = threads.tasks.map progress := by
  obtain ⟨shut, empty, idle⟩ := isTerminated_iff.mp terminated
  have same : (threads.cancel task).tasks.map progress = threads.tasks.map progress :=
    map_modify_of_same (progress_settle .cancelled)
  refine ⟨isTerminated_iff.mpr ⟨shut, empty, active_eq_zero.mpr fun found member active => ?_⟩, same⟩
  have there : progress found ∈ threads.tasks.map progress := same ▸ List.mem_map_of_mem member
  obtain ⟨before, known, alike⟩ := List.mem_map.mp there
  have state : before.state = found.state := congrArg Prod.snd alike
  exact active_eq_zero.mp idle before known (state.trans active)

variable [ExecutorFailureEnforcer ε]

/-- A step after the termination is not one of a worker thread, and leaves the tasks where they are. -/
theorem terminated_step (terminated : queue.pool.threads.isTerminated = true)
    (stepped : step fromJson queue action = some next) :
    next.pool.threads.isTerminated = true ∧ next.tasks.map progress = queue.tasks.map progress ∧
      isWork action = false := by
  have idle := running_eq_none terminated
  obtain ⟨shut, empty, -⟩ := isTerminated_iff.mp terminated
  cases step_spec stepped with
  | publish body same => subst same; exact ⟨terminated, rfl, rfl⟩
  | deliver position ex broker body live handed same => subst same; exact ⟨terminated, rfl, rfl⟩
  | callback ref delivery wait read called =>
    obtain ⟨after, -, threads⟩ := callback_threads read called
    unfold JobQueue.tasks
    generalize next.pool.threads = moved at threads ⊢
    cases threads with
    | same => exact ⟨terminated, rfl, rfl⟩
    | submitted submitted phase awaiting =>
      obtain ⟨open', -⟩ := submit_eq_some.mp submitted
      rw [shut] at open'
      contradiction
    | cancelled task =>
      obtain ⟨still, same⟩ := cancel_terminated task terminated
      exact ⟨still, same, rfl⟩
  | handleException ref delivery exception read phase same => subst same; exact ⟨terminated, rfl, rfl⟩
  | takeTask threads taken same =>
    obtain ⟨task, rest, queued, -⟩ := take_eq_some.mp taken
    rw [empty] at queued
    contradiction
  | nextHandler task execution running _ same => rw [idle task] at running; contradiction
  | handlerReturns task execution running inside same => rw [idle task] at running; contradiction
  | handlerThrows task execution running inside same => rw [idle task] at running; contradiction
  | onJob handler constructed same => subst same; exact ⟨terminated, rfl, rfl⟩
  | pool action threads other moved same =>
    subst same
    obtain ⟨still, same⟩ := winds_terminated (PoolThreads.step_winds moved) terminated
    exact ⟨still, congrArg (·.map progress) same, rfl⟩

private theorem terminated_run {actions : List (JobQueueAction β η)}
    (terminated : queue.pool.threads.isTerminated = true)
    (ran : run (step fromJson) queue actions = some next) :
    next.pool.threads.isTerminated = true ∧ next.tasks.map progress = queue.tasks.map progress ∧
      ∀ action ∈ actions, isWork action = false := by
  induction actions generalizing queue with
  | nil =>
    cases ran
    exact ⟨terminated, rfl, by simp⟩
  | cons action rest ih =>
    obtain ⟨middle, stepped, ran⟩ := run_cons_eq_some.mp ran
    obtain ⟨still, same, other⟩ := terminated_step terminated stepped
    obtain ⟨ended, alike, others⟩ := ih still ran
    refine ⟨ended, alike.trans same, fun later member => ?_⟩
    rcases List.mem_cons.mp member with rfl | member
    · exact other
    · exact others later member

/-- The call waits for the thread pool to terminate, however long that takes. -/
def waitsForEnd : PoolAction → Bool
  | .callStop block blockAfterKill => block && blockAfterKill
  | .callStopNow block => block
  | _ => false

/-- Whether the code of a thread is still to find the pool terminated before it can return: always
before it returns `Graceful`, and at one of its statements if it is to wait. -/
structure Unreturned (waits : Bool) (code : List Instr) : Prop where
  graceful : .returned .graceful ∉ code
  waiting : waits = true → .awaitKillAfter true ∈ code ∨ .awaitTermination ∈ code

section Code

variable {π : Type} {pool after : JobQueueExecutorPool ε π} {answers : ClientAnswers} {expired : Bool}
  {instr : Instr} {more : List Instr}

/-- Only a terminated pool lets a statement lead to `Graceful`. -/
theorem terminated_of_graceful (ran : (instr.code answers expired).exec pool = some (.ok more, after))
    (graceful : .returned .graceful ∈ more) : pool.threads.isTerminated = true := by
  cases instr with
  | isTerminated =>
    cases ran
    by_contra still
    simp [still] at graceful
  | awaitKillAfter blockAfterKill =>
    rw [Instr.code, Effect.exec_get_bind] at ran
    split at ran
    · assumption
    · split at ran <;> cases ran
      cases blockAfterKill <;> simp at graceful
  | shouldHalt ex =>
    obtain ⟨halts, checked, check, ran⟩ := Effect.exec_bind_eq_ok.mp ran
    cases halts <;> cases ran <;> simp [Instr.replacement, Instr.stopNowCode] at graceful
  | stopExecutors =>
    rw [Instr.code, Effect.exec_get_bind] at ran
    split at ran
    · cases ran
      contradiction
    · rw [Effect.exec_modify_bind] at ran
      obtain ⟨refs, detached, -, ran⟩ := Effect.exec_bind_eq_ok.mp ran
      cases ran
      simp at graceful
  | unlessClosing =>
    rw [Instr.code, Effect.exec_get_bind] at ran
    split at ran <;> cases ran <;> simp at graceful
  | shutdownCB =>
    rw [Instr.code, Effect.exec_bind_of_ok (by rw [Effect.exec_swallow]; rfl)] at ran
    cases ran
    contradiction
  | remove | stop | unlock | shutdown | shutdownNow => cases ran; contradiction
  | returned => cases ran
  | markFailure | reason | awaitTermination | createNew | init | add =>
    obtain ⟨_, _, -, ran⟩ := Effect.exec_bind_eq_ok.mp ran
    cases ran
    simp at graceful

private theorem terminated_of_awaitTermination
    (ran : (Instr.awaitTermination.code answers expired).exec pool = some (.ok more, after)) :
    pool.threads.isTerminated = true := by
  obtain ⟨_, _, wait, -⟩ := Effect.exec_bind_eq_ok.mp ran
  rw [JobQueueExecutorPool.awaitTermination, Effect.exec_get_bind] at wait
  split at wait
  · assumption
  · cases wait

/-- A stop that is to wait does so after the kill as well. -/
theorem waits_after_kill (alive : pool.threads.isTerminated = false)
    (ran : ((Instr.awaitKillAfter true).code answers expired).exec pool = some (.ok more, after)) :
    .awaitTermination ∈ more := by
  rw [Instr.code, Effect.exec_get_bind, if_neg (by simp [alive])] at ran
  split at ran <;> cases ran
  simp

end Code

/-- The thread has thrown, has still to find the pool terminated, or has found it so. -/
def Stopping (waits : Bool) (activity : ℕ) (queue : JobQueue ε β δ η) : Prop :=
  ∃ code, queue.threads.activities[activity]? = some code ∧
    (code = [] ∨ Unreturned waits code ∨ queue.pool.threads.isTerminated = true)

private theorem stopping_step {waits : Bool} {activity : ℕ} (stopping : Stopping waits activity queue)
    (stepped : step fromJson queue action = some next) : Stopping waits activity next := by
  obtain ⟨code, read, state⟩ := stopping
  have ends (terminated : queue.pool.threads.isTerminated = true) : next.pool.threads.isTerminated = true :=
    (terminated_step terminated stepped).1
  have stays (same : next.threads.activities[activity]? = some code) : Stopping waits activity next :=
    ⟨code, same, state.imp_right (.imp_right ends)⟩
  rcases step_threads stepped with same | ⟨poolAction, rfl, moved⟩
  · exact stays (same ▸ read)
  rcases PoolThreads.step_activity moved read with
    same | ⟨answers, expired, instr, rest, result, -, rfl, ran, after⟩
  · exact stays same
  refine ⟨_, after, ?_⟩
  rcases state with nothing | unreturned | terminated
  · contradiction
  · cases result with
    | error exception => exact .inl rfl
    | ok more =>
      by_cases terminated : queue.pool.threads.isTerminated = true
      · exact .inr (.inr (ends terminated))
      · refine .inr (.inl ⟨fun graceful => ?_, fun waits => ?_⟩)
        · rcases List.mem_append.mp graceful with now | later
          · exact terminated (terminated_of_graceful ran now)
          · exact unreturned.graceful (List.mem_cons_of_mem _ later)
        · rcases unreturned.waiting waits with first | last
          · rcases List.mem_cons.mp first with rfl | later
            · exact .inr (List.mem_append_left _ (waits_after_kill (eq_false_of_ne_true terminated) ran))
            · exact .inl (List.mem_append_right _ later)
          · rcases List.mem_cons.mp last with rfl | later
            · exact absurd (terminated_of_awaitTermination ran) terminated
            · exact .inr (List.mem_append_right _ later)
  · exact .inr (.inr (ends terminated))

/-- The call is one of `stop` or `stopNow`. -/
def isStop : PoolAction → Bool
  | .callStop _ _ | .callStopNow _ => true
  | _ => false

private theorem stopping_call {call : PoolAction} (isCall : isStop call = true)
    (stepped : step fromJson called (.pool call) = some next) :
    Stopping (waitsForEnd call) called.threads.activities.length next := by
  cases call with
  | callStop block blockAfterKill =>
    cases stepped
    refine ⟨_, List.getElem?_concat_length .., .inr (.inl ⟨?_, fun waits => ?_⟩)⟩
    · cases block <;> simp [Instr.stopCode]
    · obtain ⟨rfl, rfl⟩ := Bool.and_eq_true_iff.mp waits
      exact .inl (by simp [Instr.stopCode])
  | callStopNow block =>
    cases stepped
    refine ⟨_, List.getElem?_concat_length .., .inr (.inl ⟨?_, fun waits => ?_⟩)⟩
    · cases block <;> simp [Instr.stopNowCode]
    · cases waits
      exact .inr (by simp [Instr.stopNowCode])
  | close | signal | exec => contradiction

omit [ExecutorFailureEnforcer ε] in
private theorem undropped_of_new {config : ExecutorPoolConfig ε} {clock : Clock}
    {pool : JobQueueExecutorPool ε (Job δ η)}
    (constructed : JobQueueExecutorPool.new config clock = .ok pool) (waiting : List β) :
    Undropped (·.hasBegun = true) (starting pool waiting).pool.threads := by
  obtain ⟨-, -, rfl⟩ := JobQueueExecutorPool.new_eq_ok constructed
  exact scheduled_new _

private theorem undropped_run {actions : List (JobQueueAction β η)}
    (undropped : Undropped (·.hasBegun = true) queue.pool.threads)
    (unforced : Along (step fromJson) (fun queue action => ¬ Forces queue action) queue actions)
    (ran : run (step fromJson) queue actions = some next) :
    Undropped (·.hasBegun = true) next.pool.threads :=
  run_invariant_along (motive := fun queue => Undropped (·.hasBegun = true) queue.pool.threads)
    (fun _ _ _ undropped unforced stepped => (step_threadStep stepped).undropped unforced undropped)
    undropped unforced ran

/-- Once `stop` has returned `Graceful`, or a stop that is to wait has returned at all, the worker
threads do nothing any more; and if nothing has dropped the queue, every job has ended and answered. -/
theorem stop_final (config : ExecutorPoolConfig ε) (clock : Clock) (fromJson : β → Except Throwable δ)
    (waiting : List β) (before middle after : List (JobQueueAction β η)) (call : PoolAction)
    (code : StopCode) (pool : JobQueueExecutorPool ε (Job δ η))
    (constructed : JobQueueExecutorPool.new config clock = .ok pool)
    (reached : run (step fromJson) (starting pool waiting) before = some called)
    (isCall : isStop call = true)
    (ran : run (step fromJson) called (.pool call :: middle) = some stopped)
    (returned : stopped.threads.activities[called.threads.activities.length]? = some [.returned code])
    (waited : code = .graceful ∨ waitsForEnd call = true)
    (continued : run (step fromJson) stopped after = some final) :
    (final.pool.threads.isTerminated = true ∧ final.tasks.map progress = stopped.tasks.map progress ∧
      ∀ action ∈ after, isWork action = false) ∧
    (Along (step fromJson) (fun queue action => ¬ Forces queue action) (starting pool waiting)
        (before ++ .pool call :: middle) →
      ∀ task ∈ final.tasks, task.state = .ended ∧ task.future ≠ .pending) := by
  have terminated : stopped.pool.threads.isTerminated = true := by
    obtain ⟨_, stepped, ran⟩ := run_cons_eq_some.mp ran
    obtain ⟨found, read, nothing | unreturned | terminated⟩ :=
      run_invariant (fun _ _ _ stopping stepped => stopping_step stopping stepped)
        (stopping_call isCall stepped) ran
    · rw [returned] at read
      cases read
      contradiction
    · cases returned.symm.trans read
      rcases waited with rfl | waits
      · exact absurd List.mem_cons_self unreturned.graceful
      · rcases unreturned.waiting waits with first | last
        · simp at first
        · simp at last
    · exact terminated
  have rest := terminated_run terminated continued
  refine ⟨rest, fun unforced task member => ?_⟩
  have stoppedRun := run_append_eq_some.mpr ⟨called, reached, ran⟩
  have kept := undropped_run (undropped_of_new constructed waiting) unforced stoppedRun
  have working : Working final := run_invariant (fun _ _ _ working stepped => working_step working stepped)
    (working_of_new constructed) (run_append_eq_some.mpr ⟨stopped, stoppedRun, continued⟩)
  obtain ⟨number, read⟩ := List.mem_iff_getElem?.mp member
  have alike : progress task ∈ stopped.tasks.map progress := rest.2.1 ▸ List.mem_map_of_mem member
  obtain ⟨before, known, same⟩ := List.mem_map.mp alike
  obtain ⟨position, known⟩ := List.mem_iff_getElem?.mp known
  have ended : task.state = .ended :=
    (congrArg Prod.snd same).symm.trans (kept.settled terminated known).1
  exact ⟨ended, (working.scheduled number task read).ended ended⟩

/-- A job is running when `stop` is called, and comes back. After `stop` has returned another job is
dispatched, and `stopNow` is called. -/
theorem stop_final_running : ∃ stopped final : JobQueue MaxFailureEnforcer ℕ ℕ ℕ,
    run (step .ok) stopped [.publish 2, .pool (.callStopNow true)] = some final ∧
    stopped.tasks.map (·.future) = [.normal] ∧ final.pool.threads.isTerminated = true ∧
    final.tasks.map progress = stopped.tasks.map progress := by
  obtain ⟨called, reached, stopped, ran, -, graceful, -, futures, -⟩ := GracefulStop.run_stopAround
  have final := stop_final ⟨"jobs", 1, maxTotalFailures 5⟩ (Stream'.const 0) .ok [1]
    UnstartedJobs.firstJob _ _ (.callStop true true) .graceful UnstartedJobs.onePool rfl reached rfl ran
    graceful (.inl rfl) (rfl : run (step .ok) stopped [.publish 2, .pool (.callStopNow true)] = _)
  exact ⟨stopped, _, rfl, futures, final.1.1, final.1.2.1⟩

end RabbitJobQueue.Soundness.StopFinal
