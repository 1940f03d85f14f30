import RabbitJobQueue.Machine.Schedule
import RabbitJobQueue.Proofs.Custody

/-! # No task of the job queue is forgotten

What a step does to the worker threads: the pool's own methods only shut them down, a callback submits
or cancels a task, and the threads take, advance and finish tasks by themselves. So a task waits in the
queue, is on a thread with its execution begun, or has answered, unless `shutdownNow` has dropped it; and
a late acknowledgement that did not go through was tried on a closed channel.
-/

namespace RabbitJobQueue.Model

open Machine

/-- What the pool's own methods do to its worker threads; `forced` says that they may drop tasks. -/
inductive Winds {π : Type} (forced : Prop) (before : ThreadPool π) : ThreadPool π → Prop
  | same : Winds forced before before
  | shutdown : Winds forced before before.shutdown
  | shutdownNow (drops : forced) : Winds forced before before.shutdownNow

private theorem Winds.imp {π : Type} {forced other : Prop} {before after : ThreadPool π}
    (winds : Winds forced before after) (imply : forced → other) : Winds other before after := by
  cases winds with
  | same => exact .same
  | shutdown => exact .shutdown
  | shutdownNow drops => exact .shutdownNow (imply drops)

namespace Instr

open JobQueueExecutorPool

variable {ε π : Type} {pool next : JobQueueExecutorPool ε π} {answers : ClientAnswers} {expired : Bool}
  {instr : Instr} {result : Except Throwable (List Instr)}

private theorem winds_of_same {forced : Prop} {before after : ThreadPool π} (same : after = before) :
    Winds forced before after := by
  rw [same]
  exact .same

private theorem createNew_threads {created : Except Throwable ExecutorRef}
    (ran : (JobQueueExecutorPool.createNew answers).exec pool = some (created, next)) :
    next.threads = pool.threads := by
  rw [JobQueueExecutorPool.createNew, Effect.exec_modify_bind, Effect.exec_get_bind] at ran
  cases provided : answers.channelProvider with
  | error exception => rw [provided] at ran; cases ran; rfl
  | ok _ => rw [provided] at ran; cases ran; rfl

private theorem init_threads {ex : ExecutorRef} {subscribed : Except Throwable Unit}
    (ran : (JobQueueExecutorPool.init ex answers).exec pool = some (subscribed, next)) :
    next.threads = pool.threads := by
  rw [JobQueueExecutorPool.init] at ran
  cases consumed : answers.basicConsume with
  | error exception => rw [consumed] at ran; cases ran; rfl
  | ok _ =>
    rw [consumed] at ran
    simp only [Effect.exec_get_bind] at ran
    split at ran <;> cases ran <;> rfl

private theorem code_winds [ExecutorFailureEnforcer ε]
    (ran : (instr.code answers expired).exec pool = some (result, next)) :
    Winds (instr = .shutdownNow) pool.threads next.threads := by
  cases instr with
  | markFailure =>
    obtain ⟨_, mark, -⟩ := Effect.of_exec_bind_pure ran
    exact winds_of_same (by rw [markFailure_same mark])
  | shouldHalt ex =>
    rcases Effect.exec_bind_eq_some.mp ran with ⟨halts, checked, check, ran⟩ | ⟨exception, check, -⟩
    · cases halts <;> cases ran <;> exact winds_of_same (by rw [enforce_same check])
    · exact winds_of_same (by rw [enforce_same check])
  | reason =>
    obtain ⟨_, tell, -⟩ := Effect.of_exec_bind_pure ran
    exact winds_of_same (by rw [enforce_same tell])
  | remove ex =>
    cases ran
    exact winds_of_same (congrArg (·.threads) (remove_relinks pool ex).frame)
  | stop ex => cases ran; exact .same
  | unlessClosing =>
    rw [code, Effect.exec_get_bind] at ran
    split at ran <;> cases ran <;> exact .same
  | createNew =>
    obtain ⟨_, create, -⟩ := Effect.of_exec_bind_pure ran
    exact winds_of_same (createNew_threads create)
  | init ex =>
    obtain ⟨_, subscribe, -⟩ := Effect.of_exec_bind_pure ran
    exact winds_of_same (init_threads subscribe)
  | add ex =>
    obtain ⟨_, link, -⟩ := Effect.of_exec_bind_pure ran
    have linked : (JobQueueExecutorPool.add ex pool).2 = next := congrArg Prod.snd (Option.some.inj link)
    exact winds_of_same (by rw [← linked, (add_relinks _ _).frame])
  | stopExecutors =>
    rw [code, Effect.exec_get_bind] at ran
    split at ran
    · cases ran; exact .same
    · rw [Effect.exec_modify_bind] at ran
      obtain ⟨_, visit, -⟩ := Effect.of_exec_bind_pure ran
      obtain ⟨-, frame, -⟩ := detach_spec visit
      exact winds_of_same (by rw [frame])
  | unlock => cases ran; exact .same
  | shutdown => cases ran; exact .shutdown
  | shutdownNow => cases ran; exact .shutdownNow rfl
  | shutdownCB =>
    rw [code, Effect.exec_bind_of_ok (by rw [Effect.exec_swallow]; rfl)] at ran
    cases ran
    exact .same
  | isTerminated => cases ran; exact .same
  | awaitKillAfter blockAfterKill =>
    rw [code, Effect.exec_get_bind] at ran
    split at ran
    · cases ran; exact .same
    · split at ran <;> cases ran
      exact .same
  | awaitTermination =>
    obtain ⟨_, wait, -⟩ := Effect.of_exec_bind_pure ran
    rw [JobQueueExecutorPool.awaitTermination, Effect.exec_get_bind] at wait
    split at wait <;> cases wait
    exact .same
  | returned code => cases ran

end Instr

/-- The step is the `shutdownNow` of a thread. -/
def PoolThreads.Forces {ε π : Type} (threads : PoolThreads ε π) (action : PoolAction) : Prop :=
  ∃ activity answers expired rest, action = .exec activity answers expired ∧
    threads.activities[activity]? = some (.shutdownNow :: rest)

theorem PoolThreads.step_winds {ε π : Type} [ExecutorFailureEnforcer ε] {threads next : PoolThreads ε π}
    {action : PoolAction} (stepped : threads.step action = some next) :
    Winds (threads.Forces action) threads.pool.threads next.pool.threads := by
  cases action with
  | callStop block blockAfterKill => cases stepped; exact .same
  | callStopNow block => cases stepped; exact .same
  | close ex cause =>
    unfold step at stepped
    dsimp only at stepped
    split at stepped <;> cases stepped
    exact .same
  | signal ex =>
    obtain ⟨cause, -, same⟩ := Option.map_eq_some_iff.mp stepped
    cases same
    exact .same
  | exec activity answers expired =>
    obtain ⟨instr, rest, result, read, -, ran, -⟩ := exec_eq_some.mp stepped
    exact (Instr.code_winds ran).imp fun drops => ⟨activity, answers, expired, rest, rfl, drops ▸ read⟩

namespace JobQueue

open JobQueueExecutorPool ThreadPool

variable {ε β δ η : Type} {fromJson : β → Except Throwable δ} {queue next : JobQueue ε β δ η}
  {ref : DeliveryRef} {delivery : Delivery β δ} {wait : Wait} {action : JobQueueAction β η}

/-- What a statement of the delivery callback does to the worker threads. -/
inductive CallbackThreads (ref : DeliveryRef) (delivery after : Delivery β δ)
    (before : ThreadPool (Job δ η)) : ThreadPool (Job δ η) → Prop
  | same : CallbackThreads ref delivery after before before
  | submitted {threads : ThreadPool (Job δ η)} {task : ℕ} {dispatch : δ}
      (submitted : before.submit { delivery := ref, dispatch } = some (threads, task))
      (phase : delivery.phase = .decoded dispatch) (awaiting : after.phase = .awaiting dispatch) :
      CallbackThreads ref delivery after before threads
  | cancelled (task : ℕ) : CallbackThreads ref delivery after before (before.cancel task)

theorem callback_threads (read : queue.deliveries[ref]? = some delivery)
    (called : callback fromJson queue ref delivery wait = some next) :
    ∃ after, CallbackStep fromJson queue next ref delivery after ∧
      CallbackThreads ref delivery after queue.pool.threads next.pool.threads := by
  obtain ⟨after, spec⟩ := callback_spec read called
  refine ⟨after, spec, ?_⟩
  rw [callback] at called
  split at called
  · split at called
    · split at called <;> cases called <;> exact .same
    · contradiction
  · split at called <;> cases called <;> exact .same
  · next dispatch phase =>
    split at called <;> cases called
    · next threads task submitted =>
      have moved : queue.deliveries.set ref after = queue.deliveries.set ref
          { delivery with phase := .awaiting dispatch, future := some task } :=
        spec.deliveries.symm.trans (setDelivery_deliveries read)
      obtain ⟨inside, -⟩ := List.getElem?_eq_some_iff.mp read
      have same := congrArg (·[ref]?) moved
      simp only [List.getElem?_set_self inside, Option.some.injEq] at same
      exact .submitted submitted phase (by rw [same])
    · exact .same
  · split at called <;> cases called <;> exact .same
  · rw [basicAck] at called
    split at called
    · next acked =>
      split at acked <;> cases acked
      cases called
      exact .same
    · cases called
      exact .same
  · obtain ⟨task, -, same⟩ := Option.map_eq_some_iff.mp called
    cases same
    exact .cancelled task
  · rw [basicAck] at called
    split at called
    · next acked =>
      split at acked <;> cases acked
      cases called
      exact .same
    · cases called
      exact .same
  · cases called
    exact .same
  · contradiction
  · contradiction
  · contradiction

/-- What a step does to the worker threads; `forced` says that it may drop tasks. -/
inductive ThreadStep (forced : Prop) (queue : JobQueue ε β δ η) : ThreadPool (Job δ η) → Prop
  | winds {threads : ThreadPool (Job δ η)} (winds : Winds forced queue.pool.threads threads) :
      ThreadStep forced queue threads
  | submitted {threads : ThreadPool (Job δ η)} (ref : DeliveryRef) (delivery : Delivery β δ) (dispatch : δ)
      (task : ℕ) (read : queue.deliveries[ref]? = some delivery) (phase : delivery.phase = .decoded dispatch)
      (submitted : queue.pool.threads.submit { delivery := ref, dispatch } = some (threads, task)) :
      ThreadStep forced queue threads
  | cancelled (task : ℕ) : ThreadStep forced queue (queue.pool.threads.cancel task)
  | taken {threads : ThreadPool (Job δ η)}
      (taken : queue.pool.threads.take (Job.begin queue.handlers) = some threads) :
      ThreadStep forced queue threads
  | advanced (task : ℕ) (execution : Execution η) :
      ThreadStep forced queue (queue.pool.threads.advance task ({ · with execution := some execution }))
  | finished (task : ℕ) (answer : FutureState) (settles : answer ≠ .pending) :
      ThreadStep forced queue (queue.pool.threads.finish task answer)

private theorem CallbackThreads.threadStep {forced : Prop} {after : Delivery β δ}
    {threads : ThreadPool (Job δ η)}
    (callbackThreads : CallbackThreads ref delivery after queue.pool.threads threads)
    (read : queue.deliveries[ref]? = some delivery) : ThreadStep forced queue threads := by
  cases callbackThreads with
  | same => exact .winds .same
  | submitted submitted phase awaiting => exact .submitted ref delivery _ _ read phase submitted
  | cancelled task => exact .cancelled task

private theorem nextHandler_threads (forced : Prop) (queue : JobQueue ε β δ η) (task : ℕ)
    (execution : Execution η) : ThreadStep forced queue (queue.nextHandler task execution).pool.threads := by
  rw [nextHandler]
  split
  · exact .finished task .normal (by decide)
  · exact .finished task .exceptional (by decide)
  · exact .advanced task _

/-- The step drops the tasks that wait. -/
def Forces (queue : JobQueue ε β δ η) : JobQueueAction β η → Prop
  | .pool action => queue.threads.Forces action
  | _ => False

theorem step_threadStep [ExecutorFailureEnforcer ε] (stepped : step fromJson queue action = some next) :
    ThreadStep (Forces queue action) queue next.pool.threads := by
  cases step_spec stepped with
  | publish body same => subst same; exact .winds .same
  | deliver position ex broker body live handed same => subst same; exact .winds .same
  | callback ref delivery wait read called =>
    obtain ⟨after, -, threads⟩ := callback_threads read called
    exact threads.threadStep read
  | handleException ref delivery exception read phase same => subst same; exact .winds .same
  | takeTask threads taken same => subst same; exact .taken taken
  | nextHandler task execution running idle same => subst same; exact nextHandler_threads _ queue task execution
  | handlerReturns task execution running inside same => subst same; exact .advanced task _
  | handlerThrows task execution running inside same => subst same; exact .finished task _ (by decide)
  | onJob handler constructed same => subst same; exact .winds .same
  | pool action threads other moved same => subst same; exact .winds (PoolThreads.step_winds moved)

private theorem ThreadStep.scheduled {forced : Prop} {threads : ThreadPool (Job δ η)}
    (step : ThreadStep forced queue threads)
    (scheduled : Scheduled (·.hasBegun = true) queue.pool.threads) :
    Scheduled (·.hasBegun = true) threads := by
  cases step with
  | winds winds =>
    cases winds with
    | same => exact scheduled
    | shutdown => exact scheduled.shutdown
    | shutdownNow => exact scheduled.shutdownNow
  | submitted ref delivery dispatch task read phase submitted => exact scheduled.submit submitted
  | cancelled task => exact scheduled.cancel
  | taken taken => exact scheduled.take (fun _ => rfl) taken
  | advanced task execution => exact scheduled.advance fun _ _ => rfl
  | finished task answer settles => exact scheduled.finish settles

theorem ThreadStep.undropped {forced : Prop} {threads : ThreadPool (Job δ η)}
    (step : ThreadStep forced queue threads) (unforced : ¬ forced)
    (undropped : Undropped (·.hasBegun = true) queue.pool.threads) :
    Undropped (·.hasBegun = true) threads := by
  cases step with
  | winds winds =>
    cases winds with
    | same => exact undropped
    | shutdown => exact undropped
    | shutdownNow drops => exact absurd drops unforced
  | submitted ref delivery dispatch task read phase submitted => exact undropped.submit submitted
  | cancelled task => exact Scheduled.cancel undropped
  | taken taken => exact undropped.take (fun _ => rfl) taken
  | advanced task execution => exact Scheduled.advance undropped fun _ _ => rfl
  | finished task answer settles => exact Scheduled.finish undropped settles

theorem ThreadStep.size {forced : Prop} {threads : ThreadPool (Job δ η)}
    (step : ThreadStep forced queue threads) : threads.size = queue.pool.threads.size := by
  cases step with
  | winds winds => cases winds <;> rfl
  | submitted ref delivery dispatch task read phase submitted =>
    obtain ⟨-, -, rfl⟩ := submit_eq_some.mp submitted
    rfl
  | taken taken =>
    obtain ⟨task, rest, -, -, rfl⟩ := take_eq_some.mp taken
    rfl
  | cancelled | advanced | finished => rfl

/-- A late acknowledgement that did not go through was tried on a closed channel. -/
def TriedWhenClosed (queue : JobQueue ε β δ η) (delivery : Delivery β δ) : Prop :=
  ((∃ dispatch, delivery.phase = .ackTried dispatch) ∨ delivery.phase = .returned .timedOut) →
    delivery.acks = 0 → queue.pool.isOpen delivery.channel = false

private theorem Advance.triedWhenClosed {after : Delivery β δ}
    (advance : Advance fromJson queue next ref delivery after) (older : Older queue next)
    (inside : delivery.channel < queue.pool.executors.length) (tried : TriedWhenClosed queue delivery) :
    TriedWhenClosed next after := by
  intro late unacked
  cases advance with
  | lateAck phase opened => contradiction
  | lateAckThrows phase closed => exact closed_step older inside closed
  | callTimeoutFn phase => exact closed_step older inside (tried (.inl ⟨_, phase⟩) unacked)
  | _ => simp at late

/-- A job queue in working order. -/
structure Working (queue : JobQueue ε β δ η) : Prop where
  coherent : Coherent queue
  custody : Custody queue
  scheduled : Scheduled (·.hasBegun = true) queue.pool.threads
  tried : ∀ delivery ∈ queue.deliveries, TriedWhenClosed queue delivery
  staffed : 0 < queue.pool.threads.size

theorem working_of_new {config : ExecutorPoolConfig ε} {clock : Clock}
    {pool : JobQueueExecutorPool ε (Job δ η)}
    (constructed : JobQueueExecutorPool.new config clock = .ok pool) {waiting : List β} :
    Working (starting pool waiting) := by
  have coherent : Coherent (starting pool waiting) := coherent_of_new constructed
  obtain ⟨positive, -, rfl⟩ := new_eq_ok constructed
  refine ⟨coherent, custody_starting _ waiting, scheduled_new _, by simp [starting], ?_⟩
  change 0 < config.poolSize.toNat
  omega

theorem working_step [ExecutorFailureEnforcer ε] (working : Working queue)
    (stepped : step fromJson queue action = some next) : Working next := by
  have threads := step_threadStep stepped
  refine ⟨coherent_step working.coherent stepped, custody_step working.custody stepped,
    threads.scheduled working.scheduled, fun after member => ?_, threads.size ▸ working.staffed⟩
  obtain ⟨ref, read⟩ := List.mem_iff_getElem?.mp member
  have older := step_older stepped
  cases (step_deliveries stepped).origin read with
  | same old =>
    have inside := (working.coherent.recorded ref after old).inside
    intro late unacked
    exact closed_step older inside (working.tried after (List.mem_of_getElem? old) late unacked)
  | advanced before asked known advance =>
    have inside := (working.coherent.recorded ref before known).inside
    exact advance.triedWhenClosed older inside (working.tried before (List.mem_of_getElem? known))
  | delivered ex body live fresh =>
    subst fresh
    simp [TriedWhenClosed]

end JobQueue

end RabbitJobQueue.Model
