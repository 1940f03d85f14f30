import RabbitJobQueue.Proofs.JobQueueSteps

/-! # The handlers a job is executed with

Handlers come from `onJob` and are kept in the order of its calls. A job gets its own when a thread takes it
off the queue: those that have been registered by then, whatever is registered later.
-/

namespace RabbitJobQueue.Model.JobQueue

open Machine

variable {ε β δ η : Type} {fromJson : β → Except Throwable δ} {queue next : JobQueue ε β δ η}
  {action : JobQueueAction β η} {actions : List (JobQueueAction β η)}

/-- The handler an action registers. -/
def registered : JobQueueAction β η → Option η
  | .onJob handler => some handler
  | _ => none

/-- The handlers registered by a run, in order. -/
def registrations (actions : List (JobQueueAction β η)) : List η := actions.filterMap registered

/-- The execution was made for these handlers. -/
def MadeFor (tasks : List (PoolTask (Job δ η))) (task : ℕ) (handlers : List η) : Prop :=
  ∃ found execution, tasks[task]? = some found ∧ found.payload.execution = some execution ∧
    execution.registered = handlers

/-- An assignment to a task that leaves it the handlers its execution was made for. -/
private theorem madeFor_of_modify {tasks : List (PoolTask (Job δ η))} {task other : ℕ} {handlers : List η}
    {update : PoolTask (Job δ η) → PoolTask (Job δ η)} (made : MadeFor (tasks.modify other update) task handlers)
    (kept : ∀ before, tasks[other]? = some before → ∀ execution,
      (update before).payload.execution = some execution →
      ∃ earlier, before.payload.execution = some earlier ∧ earlier.registered = execution.registered) :
    MadeFor tasks task handlers := by
  obtain ⟨found, execution, read, carried, same⟩ := made
  obtain ⟨before, known, change⟩ := getElem?_modify_eq_some.mp read
  split at change
  · next here =>
    subst here change
    obtain ⟨earlier, had, alike⟩ := kept before known execution carried
    exact ⟨before, earlier, known, had, alike.trans same⟩
  · exact ⟨before, execution, known, change ▸ carried, same⟩

private theorem madeFor_of_settle {tasks : List (PoolTask (Job δ η))} {task other : ℕ} {handlers : List η}
    {answer : FutureState} (made : MadeFor (tasks.modify other (·.settle answer)) task handlers) :
    MadeFor tasks task handlers :=
  madeFor_of_modify made fun _ _ execution carried =>
    ⟨execution, by rwa [PoolTask.settle_payload] at carried, rfl⟩

private theorem madeFor_of_finish {tasks : List (PoolTask (Job δ η))} {task other : ℕ} {handlers : List η}
    {answer : FutureState} (made : MadeFor (tasks.modify other (·.finish answer)) task handlers) :
    MadeFor tasks task handlers :=
  madeFor_of_modify made fun _ _ execution carried =>
    ⟨execution, by rwa [PoolTask.finish_payload] at carried, rfl⟩

/-- What is done with the execution of a job does not change the handlers it was made for. -/
private theorem madeFor_of_advance {task other : ℕ} {handlers : List η} {execution : Execution η}
    (update : Execution η → Execution η) (running : queue.running other = some execution)
    (same : (update execution).registered = execution.registered)
    (made : MadeFor (queue.tasks.modify other
      (·.advance ({ · with execution := some (update execution) }))) task handlers) :
    MadeFor queue.tasks task handlers := by
  obtain ⟨found, read, -, carried⟩ := running_eq_some.mp running
  refine madeFor_of_modify made fun before known later assigned => ?_
  cases read.symm.trans known
  cases assigned
  exact ⟨execution, carried, same.symm⟩

/-- The thread that takes a job off the queue makes it an execution; no other task is touched. -/
private theorem madeFor_of_take {pool taken : ThreadPool (Job δ η)} {start : Job δ η → Job δ η}
    {begun : Execution η} {task : ℕ} {handlers : List η} (took : pool.take start = some taken)
    (starts : ∀ job, (start job).execution = some begun) (made : MadeFor taken.tasks task handlers) :
    MadeFor pool.tasks task handlers ∨ (pool.queue.head? = some task ∧ begun.registered = handlers) := by
  obtain ⟨first, rest, waiting, -, rfl⟩ := ThreadPool.take_eq_some.mp took
  obtain ⟨found, execution, read, carried, alike⟩ := made
  obtain ⟨before, known, change⟩ := getElem?_modify_eq_some.mp read
  by_cases begins : first = task ∧ before.future = .pending
  · obtain ⟨rfl, pending⟩ := begins
    rw [if_pos rfl] at change
    rw [change, PoolTask.take, if_pos pending, starts] at carried
    cases carried
    exact .inr ⟨by rw [waiting, List.head?_cons], alike⟩
  · refine .inl ⟨before, execution, known, ?_, alike⟩
    split at change
    · next here =>
      have settled : before.future ≠ .pending := fun pending => begins ⟨here, pending⟩
      rwa [change, PoolTask.take, if_neg settled] at carried
    · exact change ▸ carried

variable [ExecutorFailureEnforcer ε]

private theorem step_handlers (stepped : step fromJson queue action = some next) :
    next.handlers.handlers = queue.handlers.handlers ++ (registered action).toList := by
  have nothing : queue.handlers.handlers = queue.handlers.handlers ++ (none : Option η).toList :=
    (List.append_nil _).symm
  cases step_spec stepped with
  | publish body same => subst same; exact nothing
  | deliver position ex broker body live handed same => subst same; exact nothing
  | callback ref delivery wait read called =>
    obtain ⟨after, spec⟩ := callback_spec read called
    rw [spec.handlers]
    exact nothing
  | handleException ref delivery exception read phase same => subst same; exact nothing
  | takeTask threads taken same => subst same; exact nothing
  | nextHandler task execution running idle same =>
    subst same
    rw [nextHandler]
    split <;> exact nothing
  | handlerReturns task execution running inside same => subst same; exact nothing
  | handlerThrows task execution running inside same => subst same; exact nothing
  | onJob handler constructed same => subst same; rfl
  | pool action threads other moved same => subst same; exact nothing

/-- A job gets its handlers when a thread takes it, and keeps them. -/
theorem step_madeFor {task : ℕ} {handlers : List η} (stepped : step fromJson queue action = some next)
    (made : MadeFor next.tasks task handlers) : MadeFor queue.tasks task handlers ∨
      (action = .takeTask ∧ queue.pool.threads.queue.head? = some task ∧
        handlers = queue.handlers.handlers) := by
  cases step_spec stepped with
  | publish body same => subst same; exact .inl made
  | deliver position ex broker body live handed same => subst same; exact .inl made
  | callback ref delivery wait known called =>
    cases callback_tasks called with
    | same same => exact .inl (same ▸ made)
    | submitted dispatch more =>
      obtain ⟨found, execution, read, carried, alike⟩ := made
      rw [more] at read
      rcases getElem?_alloc_eq_some.mp read with old | ⟨-, rfl⟩
      · exact .inl ⟨found, execution, old, carried, alike⟩
      · contradiction
    | cancelled other moved => exact .inl (madeFor_of_settle (moved ▸ made))
  | handleException ref delivery exception known phase same => subst same; exact .inl made
  | takeTask threads taken same =>
    subst same
    rcases madeFor_of_take taken (fun _ => rfl) made with old | ⟨first, own⟩
    · exact .inl old
    · exact .inr ⟨rfl, first, own.symm⟩
  | nextHandler other execution running idle same =>
    subst same
    rw [nextHandler] at made
    split at made
    · exact .inl (madeFor_of_finish made)
    · exact .inl (madeFor_of_finish made)
    · next handler _ =>
      exact .inl (madeFor_of_advance ({ · with running := some handler }) running rfl made)
  | handlerReturns other execution running inside same =>
    subst same
    exact .inl (madeFor_of_advance Execution.finishHandler running rfl made)
  | handlerThrows other execution running inside same => subst same; exact .inl (madeFor_of_finish made)
  | onJob handler constructed same => subst same; exact .inl made
  | pool action threads other moved same =>
    subst same
    have tasks : (queue.withPoolThreads threads).tasks = queue.tasks :=
      (PoolThreads.step_evolves moved).tasks
    exact .inl (tasks ▸ made)

theorem handlers_of_run {pool : JobQueueExecutorPool ε (Job δ η)} {waiting : List β}
    (ran : run (step fromJson) (starting pool waiting) actions = some queue) :
    queue.handlers.handlers = registrations actions := by
  induction actions using List.reverseRecOn generalizing queue with
  | nil =>
    cases ran
    rfl
  | append_singleton earlier action ih =>
    obtain ⟨middle, first, last⟩ := run_append_eq_some.mp ran
    rw [step_handlers (run_singleton.symm.trans last), ih first, registrations, registrations,
      List.filterMap_append]
    cases named : registered action <;> simp [named]

/-- By induction on the run, from its last step: when a job was taken, `onJob` had been called for exactly
the handlers its execution was made for. -/
theorem taken_of_run {pool : JobQueueExecutorPool ε (Job δ η)} {waiting : List β}
    (unstarted : pool.threads.tasks = []) {task : ℕ} {handlers : List η}
    (ran : run (step fromJson) (starting pool waiting) actions = some queue)
    (made : MadeFor queue.tasks task handlers) : ∃ before middle after,
      actions = before ++ .takeTask :: after ∧ run (step fromJson) (starting pool waiting) before = some middle ∧
      middle.pool.threads.queue.head? = some task ∧ handlers = registrations before := by
  induction actions using List.reverseRecOn generalizing queue with
  | nil =>
    cases ran
    obtain ⟨found, -, read, -⟩ := made
    have none : (starting pool waiting).tasks = [] := unstarted
    rw [none] at read
    contradiction
  | append_singleton earlier action ih =>
    obtain ⟨middle, first, last⟩ := run_append_eq_some.mp ran
    rcases step_madeFor (run_singleton.symm.trans last) made with known | ⟨rfl, turn, same⟩
    · obtain ⟨before, state, after, rfl, reached, turn, same⟩ := ih first known
      refine ⟨before, state, after ++ [action], ?_, reached, turn, same⟩
      rw [List.append_assoc, List.cons_append]
    · exact ⟨earlier, middle, [], rfl, first, turn, same.trans (handlers_of_run first)⟩

end RabbitJobQueue.Model.JobQueue
