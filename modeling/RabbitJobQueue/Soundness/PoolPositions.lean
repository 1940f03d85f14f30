import RabbitJobQueue.Proofs.PoolWork
import RabbitJobQueue.Soundness.UnstartedJobs

/-! # The positions of the pool

A position of the pool is held by an executor whose shutdown the client has not signalled, or by a thread
that has still to construct one. No step makes more of them, whatever the threads, the client and the
broker do and in whatever order, so a pool never has more consumers than `poolSize`. A position is lost only
when the pool closes, or where a statement throws that its thread depends on: until then every position has
a consumer again as soon as the threads have nothing more to do.
-/

namespace RabbitJobQueue.Soundness.PoolPositions

open Machine Model Model.JobQueueExecutorPool

variable {ε π : Type} {pool next : JobQueueExecutorPool ε π} {instr : Instr} {more : List Instr}

/-- The executors whose shutdown the client has not signalled. -/
def standing (pool : JobQueueExecutorPool ε π) : ℕ := pool.executors.countP (!·.signalled)

def positions (threads : PoolThreads ε π) : ℕ :=
  standing threads.pool + total Instr.codeBirths threads.activities

private theorem standing_of_unlinked (same : next.executors.map unlinked = pool.executors.map unlinked) :
    standing next = standing pool := by
  have count (heap : List Executor) :
      heap.countP (!·.signalled) = (heap.map unlinked).countP (!·.signalled) := by
    rw [List.countP_map]
    rfl
  rw [standing, count, same, ← count, standing]

private theorem countP_modify_unsignalled {heap : List Executor} (change : Executor → Executor)
    (ref : ExecutorRef) (kept : ∀ executor, (change executor).signalled = executor.signalled) :
    (heap.modify ref change).countP (!·.signalled) = heap.countP (!·.signalled) :=
  countP_modify_of_same fun executor _ => by rw [kept]

/-- Statements leave the signals to the client; only `createNew` adds an executor. -/
theorem standing_of_alters (alters : Instr.Alters pool next instr) :
    standing next + pool.executors.length = standing pool + next.executors.length := by
  cases alters with
  | relinks instr same =>
    have lengths := congrArg List.length same
    rw [List.length_map, List.length_map] at lengths
    rw [standing_of_unlinked same, lengths]
  | constructs id same =>
    rw [standing, same, countP_alloc, List.length_append, standing, List.length_singleton]
    simp only [Bool.not_false, ↓reduceIte]
    omega
  | subscribes ref opened same =>
    rw [standing, same, countP_modify_unsignalled ({ · with subscribed := true }) ref fun _ => rfl,
      List.length_modify, standing]
  | stops ref same =>
    rw [standing, same, countP_modify_unsignalled Executor.stop ref Executor.stop_signalled,
      List.length_modify, standing]
  | aborts same =>
    rw [standing, same, List.countP_map, List.length_map, standing]
    rfl

private theorem liveCount_le_standing (pool : JobQueueExecutorPool ε π) : pool.liveCount ≤ standing pool := by
  apply List.countP_mono_left
  intro executor _ alive
  rw [Executor.isLive, Bool.and_eq_true] at alive
  rw [Executor.signalled_of_isOpen executor alive.2]
  rfl

/-- A consumer that is signalled leaves its position to the thread of its shutdown callback. -/
theorem standing_kill {executor : Executor} {ex : ExecutorRef} (read : pool.executors[ex]? = some executor)
    (fresh : executor.signalled = false) (cause : CloseCause) :
    standing (pool.kill ex cause) + 1 = standing pool := by
  have count := countP_modify (!·.signalled) (·.die cause) read
  simp only [fresh, Executor.die, Bool.not_false, Bool.not_true, ↓reduceIte, Bool.false_eq_true] at count
  exact count

private theorem codeBirths_onConsumerShutdown (ex : ExecutorRef) (initiated : Bool) :
    Instr.codeBirths (Instr.onConsumerShutdown ex initiated) = 1 := by
  cases initiated <;> rfl

private theorem positions_call (threads : PoolThreads ε π) (code : List Instr)
    (childless : Instr.codeBirths code = 0) : positions (threads.call code) = positions threads := by
  rw [positions, PoolThreads.call, total_alloc, childless]
  rfl

section Steps

variable [ExecutorFailureEnforcer ε] {threads after : PoolThreads ε π} {action : PoolAction}

/-- What a step does to the positions of the pool: the only one it may not keep is that of the statement
it executes. -/
theorem positions_step (stepped : threads.step action = some after) :
    positions after ≤ positions threads ∧
      ((∀ activity answers expired, action ≠ .exec activity answers expired) →
        positions after = positions threads) := by
  cases action with
  | callStop block blockAfterKill =>
    cases stepped
    have kept := positions_call threads (Instr.stopCode block blockAfterKill) (by cases block <;> rfl)
    exact ⟨Nat.le_of_eq kept, fun _ => kept⟩
  | callStopNow block =>
    cases stepped
    have kept := positions_call threads (Instr.stopNowCode block ++ [.returned .forced])
      (by cases block <;> rfl)
    exact ⟨Nat.le_of_eq kept, fun _ => kept⟩
  | close ex cause =>
    unfold PoolThreads.step at stepped
    dsimp only at stepped
    split at stepped <;> cases stepped
    have same : standing (threads.pool.closeChannel ex cause) = standing threads.pool :=
      countP_modify_unsignalled (·.closeBy cause) ex fun _ => rfl
    have kept : positions { threads with pool := threads.pool.closeChannel ex cause } = positions threads := by
      rw [positions, same]
      rfl
    exact ⟨Nat.le_of_eq kept, fun _ => kept⟩
  | signal ex =>
    obtain ⟨cause, due, same⟩ := Option.map_eq_some_iff.mp stepped
    cases same
    obtain ⟨executor, read, due⟩ := Option.bind_eq_some_iff.mp due
    have fresh : executor.signalled = false := by
      split at due
      · next both =>
        rw [Bool.and_eq_true] at both
        simpa using both.2
      · contradiction
    have fewer := standing_kill read fresh cause
    have births : total Instr.codeBirths (threads.activities ++
        [Instr.onConsumerShutdown ex cause.isInitiatedByApplication]) =
          total Instr.codeBirths threads.activities + 1 := by
      rw [total_alloc, codeBirths_onConsumerShutdown]
    have kept : positions { threads with
        pool := threads.pool.kill ex cause
        activities := threads.activities ++ [Instr.onConsumerShutdown ex cause.isInitiatedByApplication] } =
          positions threads := by
      change standing (threads.pool.kill ex cause) + total _ (threads.activities ++ _) = _
      rw [births, positions]
      omega
    exact ⟨Nat.le_of_eq kept, fun _ => kept⟩
  | exec activity answers expired =>
    refine ⟨?_, fun other => absurd rfl (other activity answers expired)⟩
    obtain ⟨instr, rest, result, read, -, ran, activities⟩ := PoolThreads.exec_eq_some.mp stepped
    have births := total_set Instr.codeBirths (PoolThreads.continuation rest result) read
    have whole : Instr.codeBirths (instr :: rest) = instr.births + Instr.codeBirths rest := rfl
    have stands := standing_of_alters (Instr.code_alters ran)
    have length := Instr.code_length ran
    rw [positions, positions, activities]
    cases result with
    | error exception =>
      have left : Instr.codeBirths (PoolThreads.continuation rest (.error exception)) = 0 := rfl
      have constructs := Instr.constructs_le instr
      omega
    | ok more =>
      obtain ⟨fertile, -⟩ := (Instr.code_continues ran).cost
      have left : Instr.codeBirths (PoolThreads.continuation rest (.ok more)) =
          Instr.codeBirths more + Instr.codeBirths rest := total_append ..
      omega

omit [ExecutorFailureEnforcer ε] in
/-- The thread owes the pool an executor, a decision about one, or its closing. -/
def owes : Instr → Bool
  | .createNew | .init _ | .unlessClosing | .shouldHalt _ | .stopExecutors => true
  | _ => false

/-- The statement throws, and its thread leaves undone what it owes. -/
def Abandons (threads : PoolThreads ε π) (action : PoolAction) : Prop :=
  ∃ activity answers expired instr rest exception pool, action = .exec activity answers expired ∧
    threads.activities[activity]? = some (instr :: rest) ∧
    (instr.code answers expired).exec threads.pool = some (.error exception, pool) ∧
    ∃ one ∈ instr :: rest, owes one = true

private theorem not_abandons_of_returns {activity : ℕ} {answers : ClientAnswers} {expired : Bool}
    {rest : List Instr} (read : threads.activities[activity]? = some (instr :: rest))
    (ran : (instr.code answers expired).exec threads.pool = some (.ok more, next)) :
    ¬ Abandons threads (.exec activity answers expired) := by
  rintro ⟨_, _, _, other, others, exception, pool, same, known, threw, -⟩
  cases same
  cases read.symm.trans known
  cases ran.symm.trans threw

omit [ExecutorFailureEnforcer ε] in
private theorem codeBirths_eq_zero {code : List Instr} (nothing : ∀ one ∈ code, owes one = false) :
    Instr.codeBirths code = 0 := by
  apply total_eq_zero
  intro one member
  have paid := nothing one member
  cases one <;> first | rfl | contradiction

omit [ExecutorFailureEnforcer ε] in
private theorem births_of_continues (continues : Instr.Continues pool next instr more)
    (open' : pool.closing = false) (stays : .stopExecutors ∉ more) (outside : instr ≠ .stopExecutors) :
    Instr.codeBirths more + instr.constructs = instr.births := by
  cases continues with
  | ends instr heavy inner childless =>
    have constructs := Instr.constructs_le instr
    have none : Instr.codeBirths [] = 0 := rfl
    omega
  | refuses closed => rw [closed] at open'; contradiction
  | halts ex => simp [Instr.stopNowCode] at stays
  | stops => contradiction
  | kills blockAfterKill => cases blockAfterKill <;> rfl
  | replaces | creates | completes | answers | graceful => rfl

/-- A statement that returns in an open pool keeps the positions, unless it closes the pool or leads to
its closing. -/
theorem standing_of_returns {answers : ClientAnswers} {expired : Bool}
    (ran : (instr.code answers expired).exec pool = some (.ok more, next)) (open' : pool.closing = false)
    (stays : .stopExecutors ∉ more) (outside : instr ≠ .stopExecutors) :
    standing next + Instr.codeBirths more = standing pool + instr.births := by
  have continues := Instr.code_continues ran
  have births := births_of_continues continues open' stays outside
  have stands := standing_of_alters (Instr.code_alters ran)
  have shorter := Instr.code_length ran
  have longer := (Instr.code_evolves ran).length_le
  have length : next.executors.length = pool.executors.length + instr.constructs := by
    cases continues with
    | completes ex fresh grown => exact grown
    | ends instr heavy inner childless =>
      have none := Instr.constructs_le instr
      omega
    | _ => exact Nat.le_antisymm shorter longer
  omega

/-- All positions are held, unless the pool closes or is about to. -/
def Staffed (size : ℕ) (threads : PoolThreads ε π) : Prop :=
  threads.pool.closing = true ∨ (∃ code ∈ threads.activities, .stopExecutors ∈ code) ∨
    positions threads = size

/-- What a thread that does not abandon anything leaves of an executor's setup or of a stop. -/
theorem mem_continuation {one : Instr} {activity : ℕ} {answers : ClientAnswers} {expired : Bool}
    {rest : List Instr} {result : Except Throwable (List Instr)} {pool : JobQueueExecutorPool ε π}
    (kept : ¬ Abandons threads (.exec activity answers expired))
    (read : threads.activities[activity]? = some (instr :: rest))
    (ran : (instr.code answers expired).exec threads.pool = some (result, pool)) (owed : owes one = true)
    (later : one ∈ rest) : one ∈ PoolThreads.continuation rest result := by
  cases result with
  | ok more => exact List.mem_append_right _ later
  | error exception =>
    exact absurd ⟨activity, answers, expired, instr, rest, exception, pool, rfl, read, ran, one,
      List.mem_cons_of_mem _ later, owed⟩ kept

private theorem closing_of_stopExecutors {answers : ClientAnswers} {expired : Bool}
    {result : Except Throwable (List Instr)}
    (ran : (Instr.stopExecutors.code answers expired).exec pool = some (result, next)) :
    next.closing = true := by
  rw [Instr.code, Effect.exec_get_bind] at ran
  split at ran
  · next closed =>
    cases ran
    exact closed
  · rw [Effect.exec_modify_bind] at ran
    obtain ⟨_, visit, -⟩ := Effect.of_exec_bind_pure ran
    obtain ⟨-, frame, -⟩ := detach_spec visit
    rw [frame]

/-- A statement that throws in a thread that owes nothing leaves the executors as they are. -/
theorem standing_of_throws {answers : ClientAnswers} {expired : Bool} {exception : Throwable}
    (childless : instr.births = 0)
    (ran : (instr.code answers expired).exec pool = some (.error exception, next)) :
    standing next = standing pool := by
  have stands := standing_of_alters (Instr.code_alters ran)
  have shorter := Instr.code_length ran
  have longer := (Instr.code_evolves ran).length_le
  have constructs := Instr.constructs_le instr
  omega

/-- In an open pool that is not about to close, a statement keeps the positions, or it leads to the closing. -/
theorem positions_exec {activity : ℕ} {answers : ClientAnswers} {expired : Bool}
    (kept : ¬ Abandons threads (.exec activity answers expired)) (open' : threads.pool.closing = false)
    (ran : threads.exec activity answers expired = some after) :
    after.pool.closing = true ∨ (∃ code ∈ after.activities, .stopExecutors ∈ code) ∨
      positions after = positions threads := by
  obtain ⟨instr, rest, result, read, -, ran, activities⟩ := PoolThreads.exec_eq_some.mp ran
  have births := total_set Instr.codeBirths (PoolThreads.continuation rest result) read
  have whole : Instr.codeBirths (instr :: rest) = instr.births + Instr.codeBirths rest := rfl
  rw [positions, positions, activities]
  cases result with
  | error exception =>
    have nothing : ∀ one ∈ instr :: rest, owes one = false := by
      intro one member
      by_contra owed
      exact kept ⟨activity, answers, expired, instr, rest, exception, after.pool, rfl, read, ran, one, member,
        eq_true_of_ne_false owed⟩
    have none := codeBirths_eq_zero nothing
    have left : Instr.codeBirths (PoolThreads.continuation rest (.error exception)) = 0 := rfl
    have stands := standing_of_throws (by omega) ran
    exact .inr (.inr (by omega))
  | ok more =>
    by_cases entering : instr = .stopExecutors
    · subst entering
      exact .inl (closing_of_stopExecutors ran)
    by_cases closes : .stopExecutors ∈ more
    · obtain ⟨inside, -⟩ := List.getElem?_eq_some_iff.mp read
      exact .inr (.inl ⟨_, List.mem_set inside _, List.mem_append_left _ closes⟩)
    have stands := standing_of_returns ran open' closes entering
    have left : Instr.codeBirths (PoolThreads.continuation rest (.ok more)) =
        Instr.codeBirths more + Instr.codeBirths rest := total_append ..
    exact .inr (.inr (by omega))

private theorem staffed_step {size : ℕ} (staffed : Staffed size threads) (kept : ¬ Abandons threads action)
    (stepped : threads.step action = some after) : Staffed size after := by
  rcases staffed with closed | ⟨code, member, closes⟩ | full
  · exact .inl ((PoolThreads.step_evolves stepped).closing closed)
  · obtain ⟨activity, read⟩ := List.mem_iff_getElem?.mp member
    rcases PoolThreads.step_activity stepped read with
      same | ⟨answers, expired, instr, rest, result, rfl, rfl, ran, same⟩
    · exact .inr (.inl ⟨code, List.mem_of_getElem? same, closes⟩)
    · rcases List.mem_cons.mp closes with rfl | later
      · exact .inl (closing_of_stopExecutors ran)
      · exact .inr (.inl ⟨_, List.mem_of_getElem? same, mem_continuation kept read ran rfl later⟩)
  · cases closed : threads.pool.closing with
    | true => exact .inl ((PoolThreads.step_evolves stepped).closing closed)
    | false =>
      rw [Staffed, ← full]
      cases action with
      | exec activity answers expired => exact positions_exec kept closed stepped
      | callStop | callStopNow | close | signal => exact .inr (.inr ((positions_step stepped).2 (by simp)))

/-- An executor that has no consumer has a thread that will subscribe it. -/
def Subscribing (threads : PoolThreads ε π) : Prop :=
  ∀ (ex : ExecutorRef) (executor : Executor), threads.pool.executors[ex]? = some executor →
    executor.subscribed = false → ∃ code ∈ threads.activities, .init ex ∈ code

private theorem subscribed_of_init {answers : ClientAnswers} {expired : Bool} {ex : ExecutorRef}
    {executor : Executor} (ran : ((Instr.init ex).code answers expired).exec pool = some (.ok more, next))
    (read : next.executors[ex]? = some executor) : executor.subscribed = true := by
  obtain ⟨_, _, subscribe, ran⟩ := Effect.exec_bind_eq_ok.mp ran
  cases ran
  rw [JobQueueExecutorPool.init] at subscribe
  cases consumed : answers.basicConsume with
  | error exception => rw [consumed] at subscribe; cases subscribe
  | ok _ =>
    rw [consumed] at subscribe
    simp only [Effect.exec_get_bind] at subscribe
    split at subscribe <;> cases subscribe
    rw [update_executors] at read
    obtain ⟨before, -, same⟩ := getElem?_modify_eq_some.mp read
    rw [if_pos rfl] at same
    rw [same]

/-- Only a thread constructs an executor. -/
theorem exec_of_grown (grown : threads.pool.executors.length < after.pool.executors.length)
    (stepped : threads.step action = some after) :
    ∃ activity answers expired, action = .exec activity answers expired := by
  cases action with
  | exec activity answers expired => exact ⟨activity, answers, expired, rfl⟩
  | callStop | callStopNow => cases stepped; exact absurd grown (Nat.lt_irrefl _)
  | close ex cause =>
    unfold PoolThreads.step at stepped
    dsimp only at stepped
    split at stepped <;> cases stepped
    simp [closeChannel] at grown
  | signal ex =>
    obtain ⟨cause, -, same⟩ := Option.map_eq_some_iff.mp stepped
    cases same
    simp [kill] at grown

private theorem subscribing_step (subscribing : Subscribing threads) (kept : ¬ Abandons threads action)
    (stepped : threads.step action = some after) : Subscribing after := by
  intro ex executor read unsubscribed
  have evolves := PoolThreads.step_evolves stepped
  by_cases inside : ex < threads.pool.executors.length
  · obtain ⟨aged, readAfter, ages⟩ := evolves.executors ex _ (List.getElem?_eq_getElem inside)
    cases read.symm.trans readAfter
    have before : threads.pool.executors[ex].subscribed = false := by
      by_contra already
      rw [ages.subscribed (eq_true_of_ne_false already)] at unsubscribed
      contradiction
    obtain ⟨code, member, pending⟩ := subscribing ex _ (List.getElem?_eq_getElem inside) before
    obtain ⟨activity, known⟩ := List.mem_iff_getElem?.mp member
    rcases PoolThreads.step_activity stepped known with
      same | ⟨answers, expired, instr, rest, result, rfl, rfl, ran, same⟩
    · exact ⟨code, List.mem_of_getElem? same, pending⟩
    · rcases List.mem_cons.mp pending with rfl | later
      · cases result with
        | ok more => rw [subscribed_of_init ran read] at unsubscribed; contradiction
        | error exception =>
          exact absurd ⟨activity, answers, expired, _, rest, exception, after.pool, rfl, known, ran, _,
            List.mem_cons_self, rfl⟩ kept
      · exact ⟨_, List.mem_of_getElem? same, mem_continuation kept known ran rfl later⟩
  · -- an executor that was not there before has just been constructed
    rw [Nat.not_lt] at inside
    obtain ⟨within, -⟩ := List.getElem?_eq_some_iff.mp read
    obtain ⟨activity, answers, expired, rfl⟩ := exec_of_grown (Nat.lt_of_le_of_lt inside within) stepped
    obtain ⟨instr, rest, result, known, -, ran, activities⟩ := PoolThreads.exec_eq_some.mp stepped
    have length := Instr.code_length ran
    obtain ⟨reads, -⟩ := List.getElem?_eq_some_iff.mp known
    cases instr with
    | createNew =>
      cases result with
      | ok more =>
        cases Instr.code_continues ran with
        | completes other fresh grown =>
          rw [grown] at within
          have same : ex = other := fresh ▸ Nat.le_antisymm (Nat.le_of_lt_succ within) inside
          subst same
          exact ⟨_, activities ▸ List.mem_set reads _, List.mem_cons_self⟩
        | ends _ _ _ childless => contradiction
      | error exception =>
        exact absurd ⟨activity, answers, expired, _, rest, exception, after.pool, rfl, known, ran, _,
          List.mem_cons_self, rfl⟩ kept
    | _ => exact absurd (Nat.lt_of_le_of_lt inside within) (Nat.not_lt_of_le length)

end Steps

/-- Where no signal is due and no thread owes anything, every position of an open pool has a consumer. -/
theorem liveCount_of_served {threads : PoolThreads ε π} {size : ℕ} (staffed : Staffed size threads)
    (subscribing : Subscribing threads) (open' : threads.pool.closing = false)
    (served : ∀ ex, threads.dueSignal ex = none)
    (paid : ∀ code ∈ threads.activities, ∀ instr ∈ code, owes instr = false) :
    threads.pool.liveCount = size := by
  have full : positions threads = size := by
    rcases staffed with closed | ⟨code, member, closes⟩ | full
    · rw [open'] at closed
      contradiction
    · have owed := paid code member _ closes
      contradiction
    · exact full
  have childless : total Instr.codeBirths threads.activities = 0 :=
    total_eq_zero fun code member => codeBirths_eq_zero (paid code member)
  rw [← full, positions, childless, Nat.add_zero]
  apply List.countP_congr
  intro executor member
  obtain ⟨ex, read⟩ := List.mem_iff_getElem?.mp member
  have subscribed : executor.subscribed = true := by
    by_contra missing
    obtain ⟨code, known, pending⟩ := subscribing ex executor read (eq_false_of_ne_true missing)
    have owed := paid code known _ pending
    contradiction
  have silent := served ex
  rw [PoolThreads.dueSignal, read, Option.bind_some, subscribed, Bool.true_and] at silent
  rw [Executor.isLive, subscribed, Bool.true_and]
  cases signalled : executor.signalled with
  | true => simp [executor.silenced (.inr signalled)]
  | false =>
    rw [signalled, Bool.not_false, if_pos rfl] at silent
    simp [Channel.isOpen, silent]

/-- Whatever the threads, the client and the broker do, in whatever order, no more than `poolSize`
executors consume from the queue; and in an open pool none of whose threads has thrown before it was done,
exactly `poolSize` do, once the client has signalled every death and the threads owe nothing. -/
theorem poolSize_kept [ExecutorFailureEnforcer ε] (config : ExecutorPoolConfig ε) (clock : Clock)
    (actions : List PoolAction) (fresh : JobQueueExecutorPool ε π) (threads : PoolThreads ε π)
    (constructed : new config clock = .ok fresh)
    (ran : run PoolThreads.step (.starting fresh) actions = some threads) :
    (threads.pool.liveCount : ℤ) ≤ config.poolSize ∧
    (Along PoolThreads.step (fun threads action => ¬ Abandons threads action) (.starting fresh) actions →
      threads.pool.closing = false → (∀ ex, threads.dueSignal ex = none) →
      (∀ code ∈ threads.activities, ∀ instr ∈ code, owes instr = false) →
      (threads.pool.liveCount : ℤ) = config.poolSize) := by
  have initial : positions (.starting fresh) = config.poolSize.toNat ∧ Subscribing (.starting fresh) := by
    obtain ⟨-, -, rfl⟩ := new_eq_ok constructed
    refine ⟨?_, fun ex executor read => by contradiction⟩
    simp [positions, standing, PoolThreads.starting, Instr.startCode, total, Instr.codeBirths, Instr.births]
  obtain ⟨positive, -, -⟩ := new_eq_ok constructed
  have size : (config.poolSize.toNat : ℤ) = config.poolSize := by omega
  obtain ⟨held, subscribing⟩ := initial
  refine ⟨?_, fun along open' served paid => ?_⟩
  · have bounded : positions threads ≤ config.poolSize.toNat :=
      run_invariant (motive := fun threads => positions threads ≤ config.poolSize.toNat)
        (fun _ _ _ bounded stepped => Nat.le_trans (positions_step stepped).1 bounded) (Nat.le_of_eq held) ran
    have live := liveCount_le_standing threads.pool
    rw [positions] at bounded
    omega
  · have kept : Staffed config.poolSize.toNat threads ∧ Subscribing threads :=
      run_invariant_along (motive := fun threads => Staffed config.poolSize.toNat threads ∧ Subscribing threads)
        (fun _ _ _ both kept stepped =>
          ⟨staffed_step both.1 kept stepped, subscribing_step both.2 kept stepped⟩)
        ⟨.inr (.inr held), subscribing⟩ along ran
    rw [liveCount_of_served kept.1 kept.2 open' served paid, size]

/-- One worker is started; the broker closes its channel, and its callback replaces it. -/
def replaceOne : List PoolAction :=
  List.replicate 3 (.exec 0 {} false) ++ [.close 0 .broker, .signal 0] ++ List.replicate 8 (.exec 1 {} false)

theorem poolSize_kept_replaced : ∃ threads : PoolThreads MaxFailureEnforcer (Job ℕ ℕ),
    run PoolThreads.step (.starting UnstartedJobs.onePool) replaceOne = some threads ∧
    threads.pool.executors.map (·.isLive) = [false, true] ∧ (threads.pool.liveCount : ℤ) = 1 := by
  refine ⟨_, rfl, rfl, (poolSize_kept ⟨"jobs", 1, maxTotalFailures 5⟩ (Stream'.const 0) replaceOne
    UnstartedJobs.onePool _ rfl rfl).2 ?_ rfl ?_ ?_⟩
  · have runs {threads : PoolThreads MaxFailureEnforcer (Job ℕ ℕ)} {action : PoolAction} {rest : List PoolAction}
        {next : PoolThreads MaxFailureEnforcer (Job ℕ ℕ)} (stepped : threads.step action = some next)
        (keeps : ¬ Abandons threads action)
        (later : Along PoolThreads.step (fun threads action => ¬ Abandons threads action) next rest) :
        Along PoolThreads.step (fun threads action => ¬ Abandons threads action) threads (action :: rest) :=
      (Along.cons_iff stepped).mpr ⟨keeps, later⟩
    refine runs rfl (not_abandons_of_returns rfl rfl) (runs rfl (not_abandons_of_returns rfl rfl) ?_)
    refine runs rfl (not_abandons_of_returns rfl rfl) (runs rfl (by simp [Abandons]) ?_)
    refine runs rfl (by simp [Abandons]) (runs rfl (not_abandons_of_returns rfl rfl) ?_)
    refine runs rfl (not_abandons_of_returns rfl rfl) (runs rfl (not_abandons_of_returns rfl rfl) ?_)
    refine runs rfl (not_abandons_of_returns rfl rfl) (runs rfl (not_abandons_of_returns rfl rfl) ?_)
    refine runs rfl (not_abandons_of_returns rfl rfl) (runs rfl (not_abandons_of_returns rfl rfl) ?_)
    exact runs rfl (not_abandons_of_returns rfl rfl) .nil
  · intro ex
    rcases ex with _ | _ | later <;> rfl
  · decide

end RabbitJobQueue.Soundness.PoolPositions
