import RabbitJobQueue.Machine.Heap

/-! # A fixed pool of worker threads with a FIFO task queue

A submitted task is queued until a thread takes it and is answered through its future. Cancelling
settles the future at once, but it can only prevent a task from starting: a task that already
runs keeps its thread until it ends by itself, and its own result is then dropped. A cancelled
task still occupies its place in the queue and is thrown away when a thread reaches it. Shutting
down refuses further tasks; shutting down at once also empties the queue, and the futures of the
tasks in it are never settled by the pool.
-/

namespace RabbitJobQueue.Machine

/-- What a future answers. It leaves `pending` at most once. -/
inductive FutureState
  | pending
  | normal
  | exceptional
  | cancelled
deriving DecidableEq, Repr

/-- Where a task is: in the queue (or dropped from it unstarted), on a thread, or off it again. -/
inductive TaskState
  | waiting
  | running
  | ended
deriving DecidableEq, Repr

/-- A submitted task; `payload` is what it runs. -/
structure PoolTask (π : Type*) where
  payload : π
  future : FutureState := .pending
  state : TaskState := .waiting
deriving DecidableEq, Repr

namespace PoolTask

variable {π : Type*}

/-- A thread reaches the task: it starts unless its future has been cancelled. -/
def take (start : π → π) (task : PoolTask π) : PoolTask π :=
  if task.future = .pending then { task with payload := start task.payload, state := .running }
  else { task with state := .ended }

/-- The future accepts one answer and ignores every later one. -/
def settle (answer : FutureState) (task : PoolTask π) : PoolTask π :=
  if task.future = .pending then { task with future := answer } else task

/-- The task leaves its thread, by returning or by throwing. -/
def finish (answer : FutureState) (task : PoolTask π) : PoolTask π :=
  { task.settle answer with state := .ended }

/-- The running task makes progress. -/
def advance (update : π → π) (task : PoolTask π) : PoolTask π :=
  { task with payload := update task.payload }

@[simp] theorem settle_payload (answer : FutureState) (task : PoolTask π) :
    (task.settle answer).payload = task.payload := by
  unfold settle; split <;> rfl

@[simp] theorem settle_state (answer : FutureState) (task : PoolTask π) :
    (task.settle answer).state = task.state := by
  unfold settle; split <;> rfl

theorem settle_future (answer : FutureState) (task : PoolTask π) :
    (task.settle answer).future = if task.future = .pending then answer else task.future := by
  unfold settle; split <;> rfl

@[simp] theorem take_future (start : π → π) (task : PoolTask π) :
    (task.take start).future = task.future := by
  unfold take; split <;> rfl

@[simp] theorem take_id_payload (task : PoolTask π) : (task.take id).payload = task.payload := by
  unfold take; split <;> rfl

@[simp] theorem finish_payload (answer : FutureState) (task : PoolTask π) :
    (task.finish answer).payload = task.payload := settle_payload answer task

@[simp] theorem finish_state (answer : FutureState) (task : PoolTask π) :
    (task.finish answer).state = .ended := rfl

theorem finish_future (answer : FutureState) (task : PoolTask π) :
    (task.finish answer).future = if task.future = .pending then answer else task.future :=
  settle_future answer task

/-- A future that has been answered keeps its answer. -/
theorem settle_of_settled {answer : FutureState} {task : PoolTask π} (settled : task.future ≠ .pending) :
    task.settle answer = task := if_neg settled

end PoolTask

/-- `size` threads over the heap of all tasks ever submitted and the queue of those not taken. -/
structure ThreadPool (π : Type*) where
  size : ℕ
  tasks : List (PoolTask π) := []
  queue : List ℕ := []
  isShutdown : Bool := false
deriving DecidableEq, Repr

namespace ThreadPool

variable {π : Type*} (pool : ThreadPool π)

/-- The number of threads in use. -/
def active : ℕ := pool.tasks.countP (·.state = .running)

/-- Queue a task and return its reference; a pool that is shut down rejects it. -/
def submit (payload : π) : Option (ThreadPool π × ℕ) :=
  if pool.isShutdown then none
  else some ({ pool with
    tasks := pool.tasks ++ [{ payload }]
    queue := pool.queue ++ [pool.tasks.length] }, pool.tasks.length)

/-- An idle thread takes the oldest task off the queue. -/
def take (start : π → π) : Option (ThreadPool π) :=
  match pool.queue with
  | [] => none
  | task :: rest =>
    if pool.active < pool.size then
      some { pool with tasks := pool.tasks.modify task (·.take start), queue := rest }
    else none

def finish (task : ℕ) (answer : FutureState) : ThreadPool π :=
  { pool with tasks := pool.tasks.modify task (·.finish answer) }

def advance (task : ℕ) (update : π → π) : ThreadPool π :=
  { pool with tasks := pool.tasks.modify task (·.advance update) }

/-- Cancel a task through its future; interrupting its thread has no effect of its own here. -/
def cancel (task : ℕ) : ThreadPool π :=
  { pool with tasks := pool.tasks.modify task (·.settle .cancelled) }

def shutdown : ThreadPool π := { pool with isShutdown := true }

def shutdownNow : ThreadPool π := { pool with isShutdown := true, queue := [] }

/-- Shut down, with nothing queued and nothing running. -/
def isTerminated : Bool := pool.isShutdown && pool.queue.isEmpty && pool.active == 0

variable {pool} {next : ThreadPool π} {payload : π} {start : π → π} {task : ℕ}

theorem submit_eq_some : pool.submit payload = some (next, task) ↔
    pool.isShutdown = false ∧ task = pool.tasks.length ∧ next = { pool with
      tasks := pool.tasks ++ [{ payload }]
      queue := pool.queue ++ [pool.tasks.length] } := by
  rw [submit]
  cases pool.isShutdown
  · simp only [Bool.false_eq_true, ↓reduceIte, Option.some.injEq, Prod.mk.injEq, true_and]
    constructor
    · rintro ⟨rfl, rfl⟩; exact ⟨rfl, rfl⟩
    · rintro ⟨rfl, rfl⟩; exact ⟨rfl, rfl⟩
  · simp

theorem take_eq_some : pool.take start = some next ↔ ∃ task rest, pool.queue = task :: rest ∧
    pool.active < pool.size ∧
    next = { pool with tasks := pool.tasks.modify task (·.take start), queue := rest } := by
  rw [take]
  cases pool.queue with
  | nil => simp
  | cons task rest =>
    dsimp only
    constructor
    · intro taken
      by_cases free : pool.active < pool.size
      · rw [if_pos free] at taken
        exact ⟨task, rest, rfl, free, (Option.some.inj taken).symm⟩
      · rw [if_neg free] at taken
        contradiction
    · rintro ⟨_, _, same, free, rfl⟩
      cases same
      rw [if_pos free]

end ThreadPool

end RabbitJobQueue.Machine
