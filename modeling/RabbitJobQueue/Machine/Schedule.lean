import RabbitJobQueue.Machine.Quiescence
import RabbitJobQueue.Machine.ThreadPool

/-! # What a thread pool has still to do

A pool that is not shut down has every task that waits in its queue, and a task that is off its thread
has answered. The work left in a pool is counted over the tasks on its threads, by a rank of what they
run, and over its queue, by a cost that covers a start; every operation of a thread makes it less, and
only a submission makes it more.
-/

namespace RabbitJobQueue.Machine.ThreadPool

variable {π : Type*} {pool next : ThreadPool π} {started : π → Prop} {start update : π → π}
  {payload : π} {task : ℕ} {found : PoolTask π} {answer : FutureState}

/-- A task is where it can get on; `started` is what is known of the payload of a running one. -/
structure Placed (started : π → Prop) (pool : ThreadPool π) (task : ℕ) (found : PoolTask π) : Prop where
  waiting : found.state = .waiting → pool.isShutdown = false → task ∈ pool.queue
  running : found.state = .running → started found.payload
  ended : found.state = .ended → found.future ≠ .pending

/-- No task is forgotten. -/
def Scheduled (started : π → Prop) (pool : ThreadPool π) : Prop :=
  ∀ (task : ℕ) (found : PoolTask π), pool.tasks[task]? = some found → Placed started pool task found

theorem scheduled_new (size : ℕ) : Scheduled started ({ size } : ThreadPool π) := by
  intro task found read
  contradiction

/-- An assignment to one task. -/
theorem Scheduled.modify {change : PoolTask π → PoolTask π} (scheduled : Scheduled started pool)
    (tasks : next.tasks = pool.tasks.modify task change)
    (others : ∀ other found, other ≠ task → Placed started pool other found → Placed started next other found)
    (changed : ∀ found, Placed started pool task found → Placed started next task (change found)) :
    Scheduled started next := by
  intro other after read
  rw [tasks] at read
  obtain ⟨before, readBefore, same⟩ := getElem?_modify_eq_some.mp read
  have placed := scheduled other before readBefore
  split at same
  · next here =>
    subst here same
    exact changed before placed
  · next apart =>
    subst same
    exact others other _ (Ne.symm apart) placed

theorem Scheduled.submit (scheduled : Scheduled started pool)
    (submitted : pool.submit payload = some (next, task)) : Scheduled started next := by
  obtain ⟨-, -, rfl⟩ := submit_eq_some.mp submitted
  intro other after read
  rcases getElem?_alloc_eq_some.mp read with old | ⟨rfl, rfl⟩
  · have placed := scheduled other after old
    exact ⟨fun waits open' => List.mem_append_left _ (placed.waiting waits open'), placed.running, placed.ended⟩
  · exact ⟨fun _ _ => List.mem_append_right _ List.mem_cons_self, fun impossible => by contradiction,
      fun impossible => by contradiction⟩

theorem Scheduled.take (scheduled : Scheduled started pool) (starts : ∀ payload, started (start payload))
    (taken : pool.take start = some next) : Scheduled started next := by
  obtain ⟨head, rest, queue, -, rfl⟩ := take_eq_some.mp taken
  refine scheduled.modify rfl ?_ ?_
  · intro other found apart placed
    refine ⟨fun waits open' => ?_, placed.running, placed.ended⟩
    have queued := placed.waiting waits open'
    rw [queue] at queued
    exact (List.mem_cons.mp queued).resolve_left apart
  · intro found placed
    rw [PoolTask.take]
    split
    · exact ⟨fun impossible => by contradiction, fun _ => starts _, fun impossible => by contradiction⟩
    · next settled =>
      exact ⟨fun impossible => by contradiction, fun impossible => by contradiction, fun _ => settled⟩

theorem Scheduled.finish (scheduled : Scheduled started pool) (settles : answer ≠ .pending) :
    Scheduled started (pool.finish task answer) := by
  refine scheduled.modify rfl (fun _ _ _ placed => ⟨placed.waiting, placed.running, placed.ended⟩) ?_
  intro found _
  refine ⟨fun impossible => by contradiction, fun impossible => by contradiction, fun _ => ?_⟩
  rw [PoolTask.finish_future]
  split
  · exact settles
  · assumption

theorem Scheduled.advance (scheduled : Scheduled started pool)
    (keeps : ∀ payload, started payload → started (update payload)) :
    Scheduled started (pool.advance task update) := by
  refine scheduled.modify rfl (fun _ _ _ placed => ⟨placed.waiting, placed.running, placed.ended⟩) ?_
  intro found placed
  exact ⟨placed.waiting, fun active => keeps _ (placed.running active), placed.ended⟩

theorem Scheduled.cancel (scheduled : Scheduled started pool) : Scheduled started (pool.cancel task) := by
  refine scheduled.modify rfl (fun _ _ _ placed => ⟨placed.waiting, placed.running, placed.ended⟩) ?_
  intro found placed
  refine ⟨fun waits => placed.waiting (by simpa using waits), fun active => ?_, fun ended => ?_⟩
  · rw [PoolTask.settle_payload]
    exact placed.running (by simpa using active)
  · rw [PoolTask.settle_future]
    split
    · decide
    · assumption

theorem Scheduled.shutdown (scheduled : Scheduled started pool) : Scheduled started pool.shutdown := by
  intro other after read
  have placed := scheduled other after read
  exact ⟨fun _ open' => by contradiction, placed.running, placed.ended⟩

theorem Scheduled.shutdownNow (scheduled : Scheduled started pool) : Scheduled started pool.shutdownNow := by
  intro other after read
  have placed := scheduled other after read
  exact ⟨fun _ open' => by contradiction, placed.running, placed.ended⟩

/-- No task has been dropped: whether or not the pool is shut down, every task that waits is queued. -/
def Undropped (started : π → Prop) (pool : ThreadPool π) : Prop :=
  Scheduled started { pool with isShutdown := false }

theorem Undropped.submit (undropped : Undropped started pool)
    (submitted : pool.submit payload = some (next, task)) : Undropped started next := by
  obtain ⟨-, rfl, rfl⟩ := submit_eq_some.mp submitted
  exact Scheduled.submit undropped (submit_eq_some.mpr ⟨rfl, rfl, rfl⟩)

theorem Undropped.take (undropped : Undropped started pool) (starts : ∀ payload, started (start payload))
    (taken : pool.take start = some next) : Undropped started next := by
  obtain ⟨first, rest, queue, free, rfl⟩ := take_eq_some.mp taken
  exact Scheduled.take undropped starts (take_eq_some.mpr ⟨first, rest, queue, free, rfl⟩)

theorem active_eq_zero : pool.active = 0 ↔ ∀ found ∈ pool.tasks, found.state ≠ .running := by
  simp only [active, List.countP_eq_zero, decide_eq_true_eq, ne_eq]

/-- Some task is on a thread, or the pool can start one, or it has nothing to do. -/
theorem running_or_takes_or_idle (threads : 0 < pool.size) (start : π → π) :
    (∃ (task : ℕ) (found : PoolTask π), pool.tasks[task]? = some found ∧ found.state = .running) ∨
      (∃ next, pool.take start = some next) ∨ (pool.queue = [] ∧ pool.active = 0) := by
  by_cases busy : pool.active = 0
  · cases queue : pool.queue with
    | nil => exact .inr (.inr ⟨rfl, busy⟩)
    | cons first rest => exact .inr (.inl ⟨_, take_eq_some.mpr ⟨first, rest, queue, by omega, rfl⟩⟩)
  · simp only [active_eq_zero, not_forall, Decidable.not_not] at busy
    obtain ⟨found, member, active⟩ := busy
    obtain ⟨task, read⟩ := List.mem_iff_getElem?.mp member
    exact .inl ⟨task, found, read, active⟩

/-- In an idle pool that is not shut down, every task has ended and answered. -/
theorem Scheduled.settled_of_idle (scheduled : Scheduled started pool) (open' : pool.isShutdown = false)
    (queue : pool.queue = []) (idle : pool.active = 0) (read : pool.tasks[task]? = some found) :
    found.state = .ended ∧ found.future ≠ .pending := by
  have placed := scheduled task found read
  cases state : found.state with
  | waiting =>
    have queued := placed.waiting state open'
    rw [queue] at queued
    contradiction
  | running => exact absurd state (active_eq_zero.mp idle found (List.mem_of_getElem? read))
  | ended => exact ⟨rfl, placed.ended state⟩

theorem isTerminated_iff :
    pool.isTerminated = true ↔ pool.isShutdown = true ∧ pool.queue = [] ∧ pool.active = 0 := by
  simp only [isTerminated, Bool.and_eq_true, List.isEmpty_iff, beq_iff_eq, and_assoc]

/-- A pool that has terminated without dropping a task has brought every task to an end. -/
theorem Undropped.settled (undropped : Undropped started pool) (terminated : pool.isTerminated = true)
    (read : pool.tasks[task]? = some found) : found.state = .ended ∧ found.future ≠ .pending := by
  obtain ⟨-, queue, idle⟩ := isTerminated_iff.mp terminated
  exact Scheduled.settled_of_idle undropped rfl queue idle read

/-- What a task on a thread has still to do, its end included. -/
def taskWork (rank : π → ℕ) (task : PoolTask π) : ℕ :=
  if task.state = .running then rank task.payload + 1 else 0

def workLeft (rank : π → ℕ) (cost : ℕ) (pool : ThreadPool π) : ℕ :=
  pool.queue.length * cost + total (taskWork rank) pool.tasks

variable {rank : π → ℕ} {cost : ℕ}

theorem workLeft_submit (submitted : pool.submit payload = some (next, task)) :
    next.workLeft rank cost = pool.workLeft rank cost + cost := by
  obtain ⟨-, -, rfl⟩ := submit_eq_some.mp submitted
  have fresh : taskWork rank { payload } = 0 := rfl
  simp only [workLeft, List.length_append, List.length_singleton, total_alloc, fresh, Nat.add_mul]
  omega

/-- An assignment to one task counts by that task alone. -/
theorem workLeft_modify (rank : π → ℕ) (cost : ℕ) {change : PoolTask π → PoolTask π}
    (read : pool.tasks[task]? = some found) (tasks : next.tasks = pool.tasks.modify task change)
    (queue : next.queue = pool.queue) :
    next.workLeft rank cost + taskWork rank found =
      pool.workLeft rank cost + taskWork rank (change found) := by
  have sum := total_set (taskWork rank) (change found) read
  rw [workLeft, workLeft, tasks, queue, modify_eq_set read]
  omega

theorem workLeft_take (positive : 0 < cost) (covers : ∀ payload, rank (start payload) + 1 < cost)
    (taken : pool.take start = some next) : next.workLeft rank cost < pool.workLeft rank cost := by
  obtain ⟨head, rest, queue, -, rfl⟩ := take_eq_some.mp taken
  have shorter : pool.queue.length * cost = rest.length * cost + cost := by
    rw [queue, List.length_cons, Nat.succ_mul]
  rw [workLeft, workLeft, shorter]
  dsimp only
  cases read : pool.tasks[head]? with
  | none =>
    rw [modify_eq_of_fixed (by simp [read])]
    omega
  | some found =>
    have sum := total_set (taskWork rank) (found.take start) read
    have less : taskWork rank (found.take start) < cost := by
      rw [PoolTask.take]
      split
      · exact covers _
      · exact Nat.lt_of_le_of_lt (Nat.zero_le _) (covers found.payload)
    rw [modify_eq_set read]
    omega

theorem workLeft_finish (read : pool.tasks[task]? = some found) (active : found.state = .running) :
    (pool.finish task answer).workLeft rank cost < pool.workLeft rank cost := by
  have moved := workLeft_modify rank cost read
    (rfl : (pool.finish task answer).tasks = pool.tasks.modify task (·.finish answer)) rfl
  have before : taskWork rank found = rank found.payload + 1 := if_pos active
  have after : taskWork rank (found.finish answer) = 0 := rfl
  omega

theorem workLeft_advance (read : pool.tasks[task]? = some found) (active : found.state = .running)
    (falls : rank (update found.payload) < rank found.payload) :
    (pool.advance task update).workLeft rank cost < pool.workLeft rank cost := by
  have moved := workLeft_modify rank cost read
    (rfl : (pool.advance task update).tasks = pool.tasks.modify task (·.advance update)) rfl
  have before : taskWork rank found = rank found.payload + 1 := if_pos active
  have after : taskWork rank (found.advance update) = rank (update found.payload) + 1 := if_pos active
  omega

theorem workLeft_cancel : (pool.cancel task).workLeft rank cost = pool.workLeft rank cost := by
  cases read : pool.tasks[task]? with
  | none => rw [cancel, modify_eq_of_fixed (by simp [read])]
  | some found =>
    have moved := workLeft_modify rank cost read
      (rfl : (pool.cancel task).tasks = pool.tasks.modify task (·.settle .cancelled)) rfl
    have same : taskWork rank (found.settle .cancelled) = taskWork rank found := by simp [taskWork]
    omega

end RabbitJobQueue.Machine.ThreadPool
