import RabbitJobQueue.Proofs.JobQueueSchedule

/-! # The work a job queue has left

With nobody publishing, registering handlers or touching the pool, the queue still delivers what is
ready, runs its callbacks and its jobs, and closes the channels of callbacks that throw. Each of these
steps makes `work` smaller. It counts the turns of the loops over the handlers, the statements of the
callbacks, and for every message the broker has not removed one more delivery over each open channel,
because a channel that is closed gives its messages back.
-/

namespace RabbitJobQueue.Model

open Machine

/-- What the queue does by itself, as long as the handlers it calls come to an end. -/
def JobQueueAction.isOwn {β η : Type} : JobQueueAction β η → Bool
  | .deliver .. | .callback .. | .handleException _ | .takeTask | .nextHandler _ | .handlerEnds .. => true
  | .publish _ | .onJob _ | .pool _ => false

/-- The queue goes on without a wait running out or being interrupted. -/
def JobQueueAction.isPatient {β η : Type} : JobQueueAction β η → Bool
  | .callback _ wait => wait = .answered
  | action => action.isOwn

namespace JobQueue

open JobQueueExecutorPool ThreadPool

variable {ε β δ η : Type} {fromJson : β → Except Throwable δ} {queue next : JobQueue ε β δ η}
  {ref : DeliveryRef} {delivery after : Delivery β δ} {wait : Wait} {action : JobQueueAction β η}

/-- The turns the loop over the handlers has still to take, two for each handler. -/
def turnsLeft (handlers : HandlerPool η) (job : Job δ η) : ℕ :=
  match job.execution with
  | none => 0
  | some execution =>
    2 * (handlers.handlers.length - execution.returned.length) - execution.running.toList.length

/-- What submitting a job costs: its way through the task queue and all its turns. -/
def jobCost (handlers : HandlerPool η) : ℕ := 2 * handlers.handlers.length + 2

/-- The statements a callback has still to execute; submitting its job counts as `cost`. -/
def statementsLeft (cost : ℕ) : Phase δ → ℕ
  | .received => cost + 7
  | .accepted => cost + 6
  | .decoded _ => cost + 5
  | .awaiting _ => 4
  | .timedOut _ => 3
  | .completed | .cancelled _ => 2
  | .ackTried _ | .threw _ => 1
  | .returned _ | .failed _ => 0

def openCount {π : Type} (pool : JobQueueExecutorPool ε π) : ℕ :=
  pool.executors.countP (·.channel.isOpen)

private theorem openCount_eq {π : Type} {pool later : JobQueueExecutorPool ε π}
    (same : later.executors = pool.executors) : openCount later = openCount pool := by
  rw [openCount, same, openCount]

/-- The messages the broker has still to get rid of. -/
def backlog (broker : Broker ExecutorRef β) : ℕ := broker.ready.length + broker.unacked.length

/-- How often a message can still be handed out. -/
def load (queue : JobQueue ε β δ η) : ℕ :=
  queue.broker.ready.length + backlog queue.broker * openCount queue.pool

def callbackWork (cost : ℕ) (deliveries : List (Delivery β δ)) : ℕ :=
  total (fun delivery => statementsLeft cost delivery.phase) deliveries

def work (queue : JobQueue ε β δ η) : ℕ :=
  queue.pool.threads.workLeft (turnsLeft queue.handlers) (jobCost queue.handlers) +
    callbackWork (jobCost queue.handlers) queue.deliveries +
    queue.load * (jobCost queue.handlers + 8)

private theorem turnsLeft_handle {handlers : HandlerPool η} {execution : Execution η} {handler : η}
    {job : Job δ η} (carried : job.execution = some execution) (idle : execution.running = none)
    (turn : handlers.turn execution = .handle handler) :
    turnsLeft handlers { job with execution := some { execution with running := some handler } } <
      turnsLeft handlers job := by
  have inside : execution.returned.length < handlers.handlers.length := by
    rw [HandlerPool.turn] at turn
    split at turn
    · contradiction
    · split at turn
      · contradiction
      · split at turn <;> cases turn
        next read => exact (List.getElem?_eq_some_iff.mp read).1
  simp only [turnsLeft, carried, idle, Option.toList_some, Option.toList_none, List.length_singleton,
    List.length_nil]
  omega

private theorem turnsLeft_finishHandler {handlers : HandlerPool η} {execution : Execution η} {job : Job δ η}
    (carried : job.execution = some execution) (inside : execution.running.isSome = true)
    (follows : execution.Follows handlers) :
    turnsLeft handlers { job with execution := some execution.finishHandler } < turnsLeft handlers job := by
  obtain ⟨handler, running⟩ := Option.isSome_iff_exists.mp inside
  have called := follows.called.length_le
  have known := follows.registered.length_le
  simp only [running, Option.toList_some, List.length_append, List.length_singleton] at called
  simp only [turnsLeft, carried, Execution.finishHandler, running, Option.toList_some, Option.toList_none,
    List.length_append, List.length_singleton, List.length_nil]
  omega

private theorem turnsLeft_begin (handlers : HandlerPool η) (job : Job δ η) :
    turnsLeft handlers (job.begin handlers) + 1 < jobCost handlers := by
  simp only [turnsLeft, Job.begin, HandlerPool.execute, jobCost, List.length_nil, Option.toList_none]
  omega

private theorem callbackWork_set (cost : ℕ) (after : Delivery β δ) {deliveries : List (Delivery β δ)}
    (read : deliveries[ref]? = some delivery) :
    callbackWork cost (deliveries.set ref after) + statementsLeft cost delivery.phase =
      callbackWork cost deliveries + statementsLeft cost after.phase :=
  total_set _ after read

/-- Every transition of a delivery leaves its callback fewer statements. -/
theorem Advance.statementsLeft_lt (cost : ℕ) (advance : Advance fromJson queue next ref delivery after) :
    statementsLeft cost after.phase < statementsLeft cost delivery.phase := by
  cases advance <;> simp only [*, statementsLeft] <;> omega

private theorem backlog_requeue (broker : Broker ExecutorRef β) (closed : ExecutorRef → Bool) :
    backlog (broker.requeue closed) = backlog broker := by
  have same := (Broker.requeue_inventory broker closed).length_eq
  simp only [Broker.inventory, List.length_append, List.length_map, Broker.requeue_removed] at same
  unfold backlog
  omega

private theorem backlog_ack_le (broker : Broker ExecutorRef β) (tag : ℕ) :
    backlog (broker.ack tag) ≤ backlog broker :=
  Nat.add_le_add_left (List.length_filter_le ..) _

private theorem load_le_of_ack {tag : ℕ} (acked : next.broker = queue.broker.ack tag)
    (pool : next.pool.executors = queue.pool.executors) : next.load ≤ queue.load := by
  have fewer := Nat.mul_le_mul_right (openCount queue.pool) (backlog_ack_le queue.broker tag)
  have channels := openCount_eq pool
  rw [load, load, acked, channels]
  exact Nat.add_le_add_left fewer _

private theorem load_deliver {position tag : ℕ} {ex : ExecutorRef} {body : β}
    (handed : queue.broker.deliver position tag ex = some (next.broker, body))
    (pool : next.pool = queue.pool) : next.load + 1 = queue.load := by
  obtain ⟨read, moved⟩ := Broker.deliver_eq_some.mp handed
  obtain ⟨inside, -⟩ := List.getElem?_eq_some_iff.mp read
  have same : backlog next.broker = backlog queue.broker := by
    simp only [backlog, moved, List.length_append, List.length_singleton, List.length_eraseIdx, if_pos inside]
    omega
  have fewer : next.broker.ready.length + 1 = queue.broker.ready.length := by
    rw [moved]
    simp only [List.length_eraseIdx, if_pos inside]
    omega
  rw [load, load, same, pool]
  omega

/-- Closing a channel again changes nothing. -/
theorem closeChannel_of_closed {π : Type} {pool : JobQueueExecutorPool ε π} {ex : ExecutorRef}
    (closed : pool.isOpen ex = false) (cause : CloseCause) : pool.closeChannel ex cause = pool := by
  have same : (pool.closeChannel ex cause).executors = pool.executors := by
    apply modify_eq_of_fixed
    intro executor read
    have shut : executor.channel.isOpen = false := by
      by_contra opened
      rw [isOpen_iff.mpr ⟨executor, read, eq_true_of_ne_false opened⟩] at closed
      contradiction
    unfold Executor.closeBy
    simp only [Channel.close_of_closed shut]
  exact congrArg (fun executors => { pool with executors }) same

/-- What is held is held on open channels. -/
theorem requeue_ready_of_custody (custody : Custody queue) :
    (queue.broker.requeue fun ex => !queue.pool.isOpen ex).ready = queue.broker.ready := by
  have none : (queue.broker.unacked.filter fun held => !queue.pool.isOpen held.channel) = [] := by
    apply List.filter_eq_nil_iff.mpr
    intro held member
    obtain ⟨-, -, -, -, -, opened⟩ := custody.held held member
    simp [opened]
  simp [Broker.requeue, none]

/-- Closing a channel gives its messages back, and there is one open channel less for all of them. -/
theorem load_closeChannel (custody : Custody queue) (ex : ExecutorRef) (cause : CloseCause) :
    (queue.withPoolThreads { queue.threads with pool := queue.pool.closeChannel ex cause }).load ≤
      queue.load := by
  let closed := queue.pool.closeChannel ex cause
  let given := queue.broker.requeue fun other => !closed.isOpen other
  have same : backlog given = backlog queue.broker := backlog_requeue ..
  change given.ready.length + backlog given * openCount closed ≤ _
  rw [same, load]
  by_cases opened : queue.pool.isOpen ex = true
  · obtain ⟨executor, read, alive⟩ := isOpen_iff.mp opened
    have count := countP_modify (·.channel.isOpen) (·.closeBy cause) read
    have dead : (executor.closeBy cause).channel.isOpen = false := Channel.isOpen_close _ _
    rw [alive, dead, if_pos rfl, if_neg Bool.false_ne_true, Nat.add_zero] at count
    have fewer : openCount closed + 1 = openCount queue.pool := count
    rw [← fewer, Nat.mul_add, Nat.mul_one]
    unfold backlog at same ⊢
    omega
  · have unmoved : closed = queue.pool := closeChannel_of_closed (eq_false_of_ne_true opened) cause
    have ready : given.ready = queue.broker.ready := by
      change (queue.broker.requeue fun other => !closed.isOpen other).ready = _
      rw [unmoved]
      exact requeue_ready_of_custody custody
    rw [unmoved, ready]

/-- A step that keeps the handlers and the load makes the work less if it does so for threads and
callbacks together. -/
theorem work_lt (handlers : next.handlers = queue.handlers) (load : next.load ≤ queue.load)
    (less : next.pool.threads.workLeft (turnsLeft queue.handlers) (jobCost queue.handlers) +
        callbackWork (jobCost queue.handlers) next.deliveries <
      queue.pool.threads.workLeft (turnsLeft queue.handlers) (jobCost queue.handlers) +
        callbackWork (jobCost queue.handlers) queue.deliveries) : next.work < queue.work := by
  have loads := Nat.mul_le_mul_right (jobCost queue.handlers + 8) load
  unfold work
  rw [handlers]
  omega

private theorem load_eq (broker : next.broker = queue.broker)
    (pool : next.pool.executors = queue.pool.executors) : next.load ≤ queue.load := by
  have channels := openCount_eq pool
  rw [load, load, broker, channels]

private theorem callback_work (read : queue.deliveries[ref]? = some delivery)
    (called : callback fromJson queue ref delivery wait = some next) : next.work < queue.work := by
  obtain ⟨after, spec, threads⟩ := callback_threads read called
  obtain ⟨moved, pool⟩ := spec.threads
  have executors : next.pool.executors = queue.pool.executors := congrArg (·.pool.executors) pool
  have loads : next.load ≤ queue.load := by
    rcases spec.broker with ⟨same, -⟩ | ⟨acked, -⟩
    · exact load_eq same executors
    · exact load_le_of_ack acked executors
  have sum := callbackWork_set (jobCost queue.handlers) after read
  have fewer := spec.advance.statementsLeft_lt (jobCost queue.handlers)
  apply work_lt spec.handlers loads
  rw [spec.deliveries]
  generalize next.pool.threads = later at threads
  cases threads with
  | same => omega
  | submitted submitted phase awaiting =>
    rw [workLeft_submit submitted]
    simp only [phase, awaiting, statementsLeft] at sum
    omega
  | cancelled task =>
    rw [workLeft_cancel]
    omega

private theorem work_withThreads {threads : ThreadPool (Job δ η)}
    (less : threads.workLeft (turnsLeft queue.handlers) (jobCost queue.handlers) <
      queue.pool.threads.workLeft (turnsLeft queue.handlers) (jobCost queue.handlers)) :
    (queue.withThreads threads).work < queue.work := by
  have same : (queue.withThreads threads).load = queue.load := rfl
  change threads.workLeft _ _ + callbackWork _ queue.deliveries + (queue.withThreads threads).load * _ < _
  unfold work
  rw [same]
  exact Nat.add_lt_add_right (Nat.add_lt_add_right less _) _

private theorem nextHandler_work {task : ℕ} {execution : Execution η}
    (running : queue.running task = some execution)
    (idle : execution.running = none) : (queue.nextHandler task execution).work < queue.work := by
  obtain ⟨found, read, active, carried⟩ := running_eq_some.mp running
  rw [nextHandler]
  split
  · exact work_withThreads (workLeft_finish read active)
  · exact work_withThreads (workLeft_finish read active)
  · next handler turn =>
    exact work_withThreads (workLeft_advance read active (turnsLeft_handle carried idle turn))

/-- A message handed out costs more than the callback it starts. -/
theorem work_deliver {position : ℕ} {ex : ExecutorRef} {body : β}
    (handed : queue.broker.deliver position queue.deliveries.length ex = some (next.broker, body))
    (pool : next.pool = queue.pool) (handlers : next.handlers = queue.handlers)
    (more : next.deliveries = queue.deliveries ++ [{ channel := ex, body }]) : next.work < queue.work := by
  have fewer := load_deliver handed pool
  have sum : callbackWork (jobCost queue.handlers) next.deliveries =
      callbackWork (jobCost queue.handlers) queue.deliveries + (jobCost queue.handlers + 7) := by
    rw [more]
    exact total_alloc _
  unfold work
  rw [handlers, pool, sum, ← fewer, Nat.add_mul, Nat.one_mul]
  omega

theorem step_work [ExecutorFailureEnforcer ε] (working : Working queue) (own : action.isOwn = true)
    (stepped : step fromJson queue action = some next) : next.work < queue.work := by
  cases step_spec stepped with
  | publish body same => contradiction
  | deliver position ex broker body live handed same =>
    subst same
    exact work_deliver handed rfl rfl rfl
  | callback ref delivery wait read called => exact callback_work read called
  | handleException ref delivery exception read phase same =>
    have sum := callbackWork_set (jobCost queue.handlers) { delivery with phase := .failed exception } read
    simp only [phase, statementsLeft] at sum
    have loads := load_closeChannel working.custody delivery.channel .callbackException
    apply work_lt (congrArg (·.handlers) same) ((congrArg load same).trans_le loads)
    have moved : next.deliveries = queue.deliveries.set ref { delivery with phase := .failed exception } := by
      rw [same]
      exact modify_eq_set read
    have threads : next.pool.threads = queue.pool.threads := congrArg (·.pool.threads) same
    rw [moved, threads]
    omega
  | takeTask threads taken same =>
    subst same
    exact work_withThreads (workLeft_take (Nat.succ_pos _) (turnsLeft_begin queue.handlers) taken)
  | nextHandler task execution running idle same =>
    subst same
    exact nextHandler_work running idle
  | handlerReturns task execution running inside same =>
    subst same
    obtain ⟨found, read, active, carried⟩ := running_eq_some.mp running
    have follows := (working.coherent.sound found (List.mem_of_getElem? read)).follows execution carried
    exact work_withThreads (workLeft_advance read active (turnsLeft_finishHandler carried inside follows))
  | handlerThrows task execution running inside same =>
    subst same
    obtain ⟨found, read, active, -⟩ := running_eq_some.mp running
    exact work_withThreads (workLeft_finish read active)
  | onJob handler constructed same => contradiction
  | pool action threads other moved same => contradiction

theorem runsDown [ExecutorFailureEnforcer ε] (fromJson : β → Except Throwable δ) :
    RunsDown (step fromJson) (·.isOwn = true) (Working : JobQueue ε β δ η → Prop) work where
  kept _ _ _ working _ stepped := working_step working stepped
  falls _ _ _ working own stepped := step_work working own stepped

end JobQueue

end RabbitJobQueue.Model
