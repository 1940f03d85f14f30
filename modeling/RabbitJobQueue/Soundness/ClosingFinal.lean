import RabbitJobQueue.Proofs.PoolThreads

/-! # Whether closing is final

After `stopExecutors` has set `closing`, a callback that still has to read it creates nothing. What
is not covered is a thread that has read it already, and `start`, which never reads it: closing is
final exactly if no thread is in the middle of setting up an executor when it is set.
-/

namespace RabbitJobQueue.Soundness.ClosingFinal

open Machine Model Model.JobQueueExecutorPool Model.PoolThreads

variable {ε π : Type} [ExecutorFailureEnforcer ε]
  {source threads next : PoolThreads ε π} {action : PoolAction}

/-- The step creates an executor, subscribes one, or links one into the pool. -/
def Establishes (threads : PoolThreads ε π) : PoolAction → Prop
  | .exec activity answers expired => ∃ instr rest more next,
      threads.activities[activity]? = some (instr :: rest) ∧ instr.establishes = true ∧
      (instr.code answers expired).exec threads.pool = some (.ok more, next)
  | _ => False

/-- The thread is in the middle of setting up an executor, and nothing keeps it from going on. -/
def MidSetup (pool : JobQueueExecutorPool ε π) : List Instr → Prop
  | .createNew :: _ | .add _ :: _ => True
  | .init ex :: _ => pool.isOpen ex = true
  | _ => False

/-- No statement of this code establishes anything. -/
def Idle (code : List Instr) : Prop := ∀ instr ∈ code, instr.establishes = false

/-- Code whose establishing statements are a sequence of `createNew` at its front. -/
inductive Waiting : List Instr → Prop
  | idle {code : List Instr} (idle : Idle code) : Waiting code
  | createNew {rest : List Instr} (later : Waiting rest) : Waiting (.createNew :: rest)

/-- The code of a thread of the pool: at most one executor is in the middle of its setup. -/
inductive Orderly : List Instr → Prop
  | waiting {code : List Instr} (later : Waiting code) : Orderly code
  | initialising (ex : ExecutorRef) {rest : List Instr} (later : Waiting rest) :
      Orderly (.init ex :: .add ex :: rest)
  | adding (ex : ExecutorRef) {rest : List Instr} (later : Waiting rest) : Orderly (.add ex :: rest)

/-- Nothing will be established by this thread: nothing is left to, or the next statement is bound
to throw. -/
def Barren (pool : JobQueueExecutorPool ε π) (code : List Instr) : Prop :=
  Idle code ∨ ∃ ex rest, code = .init ex :: rest ∧ ex < pool.executors.length ∧ pool.isOpen ex = false

private theorem Orderly.exec {instr : Instr} {rest : List Instr} {answers : ClientAnswers} {expired : Bool}
    {pool after : JobQueueExecutorPool ε π} {result : Except Throwable (List Instr)}
    (orderly : Orderly (instr :: rest))
    (ran : (instr.code answers expired).exec pool = some (result, after)) :
    Orderly (continuation rest result) := by
  cases result with
  | error exception => exact .waiting (.idle (by simp [Idle, continuation]))
  | ok more =>
    change Orderly (more ++ rest)
    cases orderly with
    | waiting later =>
      cases later with
      | idle idle =>
        obtain ⟨notThis, notRest⟩ := List.forall_mem_cons.mp idle
        rcases Instr.code_more ran with ⟨-, nothing⟩ | ⟨-, -, rfl⟩ | ⟨rfl, -⟩ | ⟨⟨ex, rfl | rfl⟩, -⟩
        · exact .waiting (.idle (List.forall_mem_append.mpr ⟨fun one new => (nothing one new).1, notRest⟩))
        · exact .waiting (.createNew (.idle notRest))
        · contradiction
        · contradiction
        · contradiction
      | createNew later =>
        rcases Instr.code_more ran with ⟨known, -⟩ | ⟨known, -⟩ | ⟨-, ex, -, rfl⟩ |
          ⟨⟨ex, known | known⟩, -⟩
        · contradiction
        · contradiction
        · exact .initialising ex later
        · contradiction
        · contradiction
    | initialising ex later =>
      rcases Instr.code_more ran with ⟨known, -⟩ | ⟨known, -⟩ | ⟨known, -⟩ | ⟨-, rfl⟩
      · contradiction
      · contradiction
      · contradiction
      · exact .adding ex later
    | adding ex later =>
      rcases Instr.code_more ran with ⟨known, -⟩ | ⟨known, -⟩ | ⟨known, -⟩ | ⟨-, rfl⟩
      · contradiction
      · contradiction
      · contradiction
      · exact .waiting later

/-- Every thread of the pool runs orderly code, about executors that exist. -/
def AllOrderly (threads : PoolThreads ε π) : Prop :=
  ∀ code ∈ threads.activities, Orderly code ∧
    ∀ ex, .init ex ∈ code → ex < threads.pool.executors.length

omit [ExecutorFailureEnforcer ε] in
private theorem allOrderly_starting (pool : JobQueueExecutorPool ε π) : AllOrderly (starting pool) := by
  intro code member
  rw [List.mem_singleton.mp member, Instr.startCode]
  refine ⟨.waiting ?_, by simp⟩
  induction pool.poolSize with
  | zero => exact .idle (by simp [Idle])
  | succ remaining ih => exact .createNew ih

private theorem allOrderly_step (orderly : AllOrderly threads) (stepped : threads.step action = some next) :
    AllOrderly next := by
  have grown := (step_evolves stepped).length_le
  intro code member
  rcases step_cases stepped with ⟨started, idle, same, -⟩ | ⟨same, -⟩ |
    ⟨activity, answers, expired, -, ran⟩
  · rw [same] at member
    rcases List.mem_append.mp member with old | fresh
    · exact ⟨(orderly code old).1, fun ex known =>
        Nat.lt_of_lt_of_le ((orderly code old).2 ex known) grown⟩
    · rw [List.mem_singleton.mp fresh]
      exact ⟨.waiting (.idle idle), fun ex known => absurd (idle _ known) (by simp [Instr.establishes])⟩
  · have old := orderly code (same ▸ member)
    exact ⟨old.1, fun ex known => Nat.lt_of_lt_of_le (old.2 ex known) grown⟩
  · obtain ⟨instr, rest, result, read, -, ran, same⟩ := exec_eq_some.mp ran
    rw [same] at member
    have before := orderly _ (List.mem_of_getElem? read)
    rcases List.mem_or_eq_of_mem_set member with old | rfl
    · exact ⟨(orderly code old).1, fun ex known =>
        Nat.lt_of_lt_of_le ((orderly code old).2 ex known) grown⟩
    · refine ⟨before.1.exec ran, fun ex known => ?_⟩
      cases result with
      | error exception => simp [continuation] at known
      | ok more =>
        rcases List.mem_append.mp known with new | later
        · rcases Instr.code_more ran with ⟨-, nothing⟩ | ⟨-, -, rfl⟩ | ⟨-, ex', inside, rfl⟩ | ⟨-, rfl⟩
          · exact absurd (nothing _ new).1 (by simp [Instr.establishes])
          · simp at new
          · simp only [List.mem_cons, Instr.init.injEq, reduceCtorEq, List.not_mem_nil, or_self,
              or_false] at new
            rw [new]
            exact inside
          · simp at new
        · exact Nat.lt_of_lt_of_le (before.2 ex (List.mem_cons_of_mem _ later)) grown

/-- The pool is closing and no thread will establish anything. -/
def Final (threads : PoolThreads ε π) : Prop :=
  threads.pool.closing = true ∧ ∀ code ∈ threads.activities, Barren threads.pool code

omit [ExecutorFailureEnforcer ε] in
private theorem Barren.evolves {pool after : JobQueueExecutorPool ε π} {code : List Instr}
    (barren : Barren pool code) (evolves : Evolves pool after) : Barren after code := by
  rcases barren with idle | ⟨ex, rest, same, inside, closed⟩
  · exact .inl idle
  · refine .inr ⟨ex, rest, same, Nat.lt_of_lt_of_le inside evolves.length_le, ?_⟩
    by_contra reopened
    rw [Bool.not_eq_false] at reopened
    rw [evolves.isOpen reopened inside] at closed
    contradiction

private theorem final_step (final : Final threads) (stepped : threads.step action = some next) :
    Final next := by
  obtain ⟨closing, barren⟩ := final
  have evolves := step_evolves stepped
  refine ⟨evolves.closing closing, fun code member => ?_⟩
  rcases step_cases stepped with ⟨started, idle, same, -⟩ | ⟨same, -⟩ |
    ⟨activity, answers, expired, -, ran⟩
  · rw [same] at member
    rcases List.mem_append.mp member with old | fresh
    · exact (barren code old).evolves evolves
    · rw [List.mem_singleton.mp fresh]
      exact .inl idle
  · exact (barren code (same ▸ member)).evolves evolves
  · obtain ⟨instr, rest, result, read, -, ran, same⟩ := exec_eq_some.mp ran
    rw [same] at member
    rcases List.mem_or_eq_of_mem_set member with old | rfl
    · exact (barren code old).evolves evolves
    · cases result with
      | error exception => exact .inl (by simp [Idle, continuation])
      | ok more =>
        rcases barren _ (List.mem_of_getElem? read) with idle | ⟨ex, _, same, -, closed⟩
        · obtain ⟨notThis, notRest⟩ := List.forall_mem_cons.mp idle
          rcases Instr.code_more ran with ⟨-, nothing⟩ | ⟨-, open', -⟩ | ⟨rfl, -⟩ | ⟨⟨ex, rfl | rfl⟩, -⟩
          · exact .inl (List.forall_mem_append.mpr ⟨fun one new => (nothing one new).1, notRest⟩)
          · rw [closing] at open'
            contradiction
          · contradiction
          · contradiction
          · contradiction
        · cases same
          exact absurd ran (Instr.init_ne_ok closed)

private theorem not_establishes_of_final (final : Final threads) : ¬ Establishes threads action := by
  cases action with
  | exec activity answers expired =>
    rintro ⟨instr, rest, more, after, read, establishes, ran⟩
    rcases final.2 _ (List.mem_of_getElem? read) with idle | ⟨ex, _, same, -, closed⟩
    · rw [idle instr (List.mem_cons_self)] at establishes
      contradiction
    · cases same
      exact Instr.init_ne_ok closed ran
  | callStop | callStopNow | close | signal => exact id

/-- Only the synchronized block of `stopExecutors` sets `closing`, and it closes no channel and
leaves every other thread where it is. -/
theorem closing_step (stepped : threads.step action = some next)
    (before : threads.pool.closing = false) (after : next.pool.closing = true) :
    next.pool.head = none ∧ (∀ ex, next.pool.isOpen ex = threads.pool.isOpen ex) ∧
      next.pool.executors.length = threads.pool.executors.length ∧
      ∃ activity rest more, threads.activities[activity]? = some (.stopExecutors :: rest) ∧
        Idle more ∧ next.activities = threads.activities.set activity (more ++ rest) := by
  have changed : ¬ next.pool.closing = threads.pool.closing := by simp [before, after]
  rcases step_cases stepped with ⟨_, -, -, -, same⟩ | ⟨-, -, same⟩ |
    ⟨activity, answers, expired, -, ran⟩
  · exact absurd same changed
  · exact absurd same changed
  · obtain ⟨instr, rest, result, read, -, ran, same⟩ := exec_eq_some.mp ran
    by_cases entering : instr = .stopExecutors
    · subst entering
      rw [Instr.code, Effect.exec_get_bind, if_neg (by simp [before]), Effect.exec_modify_bind] at ran
      rcases Effect.exec_bind_eq_some.mp ran with ⟨refs, detached, visit, ran⟩ | ⟨exception, visit, -⟩
      · obtain ⟨-, frame, view⟩ := detach_spec visit
        cases ran
        refine ⟨by rw [frame], fun ex => isOpen_of_unlinked view ex, ?_, activity, rest, _, read, ?_, same⟩
        · simpa using congrArg List.length view
        · intro other member
          rcases List.mem_append.mp member with stops | unlock
          · obtain ⟨ref, -, rfl⟩ := List.mem_map.mp stops
            rfl
          · rw [List.mem_singleton.mp unlock]
            rfl
      · obtain ⟨⟨refs, impossible⟩, -⟩ := detach_spec visit
        contradiction
    · exact absurd (Instr.code_closing entering ran) changed

omit [ExecutorFailureEnforcer ε] in
/-- A thread that is not in the middle of a setup has none left, or a setup that cannot go on. -/
theorem barren_of_not_midSetup {pool : JobQueueExecutorPool ε π} {code : List Instr}
    (orderly : Orderly code) (inside : ∀ ex, .init ex ∈ code → ex < pool.executors.length)
    (calm : ¬ MidSetup pool code) : Barren pool code := by
  cases orderly with
  | waiting later =>
    cases later with
    | idle idle => exact .inl idle
    | createNew later => exact absurd trivial calm
  | initialising ex later =>
    exact .inr ⟨ex, _, rfl, inside ex (List.mem_cons_self), eq_false_of_ne_true calm⟩
  | adding ex later => exact absurd trivial calm

/-- A thread in the middle of a setup can take the next step of it as long as the list is empty. -/
theorem establishes_of_midSetup {activity : ℕ} {code : List Instr} (empty : threads.pool.head = none)
    (read : threads.activities[activity]? = some code) (mid : MidSetup threads.pool code) :
    Establishes threads (.exec activity {} false) := by
  match code, mid with
  | .createNew :: rest, _ => exact ⟨_, rest, _, _, read, rfl, rfl⟩
  | .add ex :: rest, _ =>
    refine ⟨_, rest, [], { threads.pool with head := some ex, tail := some ex }, read, rfl, ?_⟩
    rw [Instr.code, Effect.exec_bind_of_ok (t := { threads.pool with head := some ex, tail := some ex })
      (by rw [Effect.exec_ofExcept, add, empty])]
    rfl
  | .init ex :: rest, opened =>
    refine ⟨_, rest, [], threads.pool.update ex ({ · with subscribed := true }), read, rfl, ?_⟩
    rw [Instr.code, Effect.exec_bind_of_ok (t := threads.pool.update ex ({ · with subscribed := true }))]
    · rfl
    · change (if threads.pool.isOpen ex = true then _ else _ : Code ε π Unit).exec threads.pool = _
      rw [if_pos (show threads.pool.isOpen ex = true from opened)]
      exact Effect.exec_modify _

/-- For every run: once `closing` is set, nothing is created, subscribed or linked any more,
however the threads go on, if and only if no thread was in the middle of setting up an executor. -/
theorem closing_final_iff (fresh : JobQueueExecutorPool ε π) (before : List PoolAction)
    (action : PoolAction)
    (ran : run step (starting fresh) before = some source) (open' : source.pool.closing = false)
    (stepped : source.step action = some threads) (closing : threads.pool.closing = true) :
    (∀ after, Along step (fun current action => ¬ Establishes current action) threads after) ↔
      ∀ code ∈ source.activities, ¬ MidSetup source.pool code := by
  have orderly : AllOrderly source :=
    run_invariant (fun _ _ _ orderly stepped => allOrderly_step orderly stepped)
      (allOrderly_starting fresh) ran
  obtain ⟨head, opened, length, activity, rest, more, read, idle, same⟩ :=
    closing_step stepped open' closing
  have others : ∀ code ∈ threads.activities, code = more ++ rest ∨ code ∈ source.activities := by
    intro code member
    rw [same] at member
    exact (List.mem_or_eq_of_mem_set member).symm
  constructor
  · intro final code member mid
    obtain ⟨other, readOther⟩ := List.mem_iff_getElem?.mp member
    have distinct : activity ≠ other := by
      rintro rfl
      cases read.symm.trans readOther
      exact mid
    have still : threads.activities[other]? = some code := by
      rw [same, List.getElem?_set_ne distinct, readOther]
    have mid' : MidSetup threads.pool code := by
      match code, mid with
      | .createNew :: _, _ => trivial
      | .add _ :: _, _ => trivial
      | .init ex :: _, openBefore => exact (opened ex).trans openBefore
    exact final [.exec other {} false] [] _ [] threads rfl rfl (establishes_of_midSetup head still mid')
  · intro nobody
    have final : Final threads := by
      refine ⟨closing, fun code member => ?_⟩
      rcases others code member with rfl | known
      · have own := (orderly _ (List.mem_of_getElem? read)).1
        cases own with
        | waiting later =>
          cases later with
          | idle none => exact .inl (List.forall_mem_append.mpr ⟨idle, (List.forall_mem_cons.mp none).2⟩)
      · exact (barren_of_not_midSetup (orderly code known).1 (orderly code known).2
          (nobody code known)).evolves (step_evolves stepped)
    intro after before action later middle tape continued
    exact not_establishes_of_final
      (run_invariant (fun _ _ _ final stepped => final_step final stepped) final continued)

/-- `stopNow` falls between two iterations of `start`, and `start` goes on. -/
theorem start_after_closing : ∃ (fresh : JobQueueExecutorPool MaxFailureEnforcer Unit)
    (closed final : PoolThreads MaxFailureEnforcer Unit),
      new ⟨"jobs", 2, maxTotalFailures 5⟩ (Stream'.const 0) = .ok fresh ∧
      run step (starting fresh) [.exec 0 {} false, .exec 0 {} false, .exec 0 {} false,
        .callStopNow false, .exec 1 {} false] = some closed ∧
      closed.pool.closing = true ∧ closed.pool.executors.length = 1 ∧
      run step closed [.exec 0 {} false, .exec 0 {} false, .exec 0 {} false] = some final ∧
      final.pool.executors.length = 2 ∧ final.pool.isLive 1 = true ∧ final.pool.head = some 1 :=
  ⟨_, _, _, rfl, rfl, rfl, rfl, rfl, rfl, rfl, rfl⟩

/-- `stop` is called when `start` is through and no callback is running. -/
theorem closing_final_iff_quiet : ∃ source threads : PoolThreads MaxFailureEnforcer Unit,
      run step (starting ⟨1, "jobs", maxTotalFailures 5, Stream'.const 0, { size := 1 }, false, none,
        none, 0, [], 0⟩) [.exec 0 {} false, .exec 0 {} false, .exec 0 {} false,
        .callStop true true] = some source ∧
      source.step (.exec 1 {} false) = some threads ∧
      ((∀ after, Along step (fun current action => ¬ Establishes current action) threads after) ↔
        ∀ code ∈ source.activities, ¬ MidSetup source.pool code) :=
  ⟨_, _, rfl, rfl, closing_final_iff ⟨1, "jobs", maxTotalFailures 5, Stream'.const 0, { size := 1 },
    false, none, none, 0, [], 0⟩ [.exec 0 {} false, .exec 0 {} false, .exec 0 {} false,
    .callStop true true] (.exec 1 {} false) rfl rfl rfl rfl⟩

end RabbitJobQueue.Soundness.ClosingFinal
