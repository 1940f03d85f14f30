import RabbitJobQueue.Machine.Quiescence
import RabbitJobQueue.Proofs.ThreadRefinement

/-! # The work left to the pool's threads

A statement may put others in front of what its thread has still to do, but only lighter ones, except that
the first `stopExecutors` has all executors stopped that are on the list; and it is the first only once. So
every statement that is executed makes `workload` smaller, whatever the client answers. A statement that is
not executed waits for the thread pool to terminate, or for another thread to leave `stopExecutors`.
-/

namespace RabbitJobQueue.Model

open Machine

namespace Instr

/-- What a statement and all it leads to costs, `stopExecutors` apart. -/
def weight : Instr → ℕ
  | .returned _ => 0
  | .createNew => 3
  | .unlessClosing | .awaitKillAfter _ => 4
  | .shouldHalt _ => 7
  | _ => 1

/-- How many executors a statement may lead to. -/
def births : Instr → ℕ
  | .createNew | .unlessClosing | .shouldHalt _ => 1
  | _ => 0

/-- How many it constructs itself. -/
def constructs : Instr → ℕ
  | .createNew => 1
  | _ => 0

/-- The statement returns the method's result, or is the last one before it is returned. -/
def isFinal : Instr → Bool
  | .isTerminated | .awaitKillAfter _ | .returned _ => true
  | _ => false

def codeWeight (code : List Instr) : ℕ := total weight code

def codeBirths (code : List Instr) : ℕ := total births code

variable {ε π : Type} {pool next : JobQueueExecutorPool ε π} {answers : ClientAnswers} {expired : Bool}
  {instr : Instr} {result : Except Throwable (List Instr)}

/-- What a statement that returns puts in front of the rest. -/
inductive Continues (pool next : JobQueueExecutorPool ε π) : Instr → List Instr → Prop
  | ends (instr : Instr) (heavy : 0 < instr.weight) (inner : instr.isFinal = false)
      (childless : instr.births = 0) : Continues pool next instr []
  | refuses (closed : pool.closing = true) : Continues pool next .unlessClosing []
  | halts (ex : ExecutorRef) : Continues pool next (.shouldHalt ex) (.reason :: stopNowCode true)
  | replaces (ex : ExecutorRef) : Continues pool next (.shouldHalt ex) (replacement ex)
  | creates : Continues pool next .unlessClosing [.createNew]
  | completes (ex : ExecutorRef) (fresh : ex = pool.executors.length)
      (grown : next.executors.length = pool.executors.length + 1) :
      Continues pool next .createNew [.init ex, .add ex]
  | stops (refs : List ExecutorRef) (few : refs.length ≤ pool.executors.length + 1)
      (opened : pool.closing = false) (closed : next.closing = true) :
      Continues pool next .stopExecutors (refs.map .stop ++ [.unlock])
  | answers (code : StopCode) : Continues pool next .isTerminated [.returned code]
  | graceful (blockAfterKill : Bool) :
      Continues pool next (.awaitKillAfter blockAfterKill) [.returned .graceful]
  | kills (blockAfterKill : Bool) : Continues pool next (.awaitKillAfter blockAfterKill)
      ([.shutdownNow, .shutdownCB] ++ (if blockAfterKill then [.awaitTermination] else []) ++
        [.returned .forced])

/-- The loop of `stopExecutors` comes to at most as many executors as it has fuel for. -/
theorem detach_length {fuel : ℕ} {head : Option ExecutorRef} {refs : List ExecutorRef}
    (ran : (JobQueueExecutorPool.detach fuel head).exec pool = some (.ok refs, next)) : refs.length ≤ fuel := by
  induction fuel generalizing head pool refs with
  | zero =>
    cases head with
    | none => cases ran; exact Nat.le_of_eq rfl
    | some first => cases ran
  | succ fuel ih =>
    cases head with
    | none => cases ran; exact Nat.zero_le _
    | some first =>
      rw [JobQueueExecutorPool.detach] at ran
      simp only [Effect.exec_get_bind, Effect.exec_modify_bind] at ran
      obtain ⟨rest, final, later, ran⟩ := Effect.exec_bind_eq_ok.mp ran
      cases ran
      exact Nat.succ_le_succ (ih later)

variable [ExecutorFailureEnforcer ε]

theorem code_continues {more : List Instr}
    (ran : (instr.code answers expired).exec pool = some (.ok more, next)) :
    Continues pool next instr more := by
  cases instr with
  | shouldHalt ex =>
    obtain ⟨halts, checked, check, ran⟩ := Effect.exec_bind_eq_ok.mp ran
    cases halts <;> cases ran
    · exact .replaces ex
    · exact .halts ex
  | unlessClosing =>
    rw [code, Effect.exec_get_bind] at ran
    split at ran
    · next closed =>
      cases ran
      exact .refuses closed
    · cases ran
      exact .creates
  | createNew =>
    obtain ⟨ex, created, create, ran⟩ := Effect.exec_bind_eq_ok.mp ran
    cases ran
    obtain ⟨fresh, grown⟩ := JobQueueExecutorPool.createNew_fresh create
    exact .completes ex fresh grown
  | stopExecutors =>
    have performs := code_performs ran
    rw [code, Effect.exec_get_bind] at ran
    split at ran
    · cases ran
      exact .ends _ (by decide) rfl rfl
    · next opened =>
      rw [Effect.exec_modify_bind] at ran
      obtain ⟨refs, detached, visit, ran⟩ := Effect.exec_bind_eq_ok.mp ran
      cases ran
      obtain ⟨-, frame, -⟩ := JobQueueExecutorPool.detach_spec visit
      exact .stops refs (detach_length visit) (eq_false_of_ne_true opened) (by rw [frame])
  | isTerminated => cases ran; exact .answers _
  | awaitKillAfter blockAfterKill =>
    rw [code, Effect.exec_get_bind] at ran
    split at ran
    · cases ran; exact .graceful _
    · split at ran <;> cases ran
      exact .kills _
  | shutdownCB =>
    rw [code, Effect.exec_bind_of_ok (by rw [Effect.exec_swallow]; rfl)] at ran
    cases ran
    exact .ends _ (by decide) rfl rfl
  | remove | stop | unlock | shutdown | shutdownNow =>
    cases ran
    exact .ends _ Nat.zero_lt_one rfl rfl
  | returned => cases ran
  | markFailure | reason | awaitTermination | init | add =>
    obtain ⟨_, _, -, ran⟩ := Effect.exec_bind_eq_ok.mp ran
    cases ran
    exact .ends _ Nat.zero_lt_one rfl rfl

/-- Only `createNew` constructs executors, one at a time. -/
theorem code_length (ran : (instr.code answers expired).exec pool = some (result, next)) :
    next.executors.length ≤ pool.executors.length + instr.constructs := by
  cases code_alters ran with
  | relinks instr same =>
    have lengths := congrArg List.length same
    rw [List.length_map, List.length_map] at lengths
    omega
  | constructs id same =>
    rw [same, List.length_append, constructs]
    apply Nat.le_refl
  | subscribes ref opened same => rw [same, List.length_modify]; apply Nat.le_add_right
  | stops ref same => rw [same, List.length_modify]; apply Nat.le_add_right
  | aborts same => rw [same, List.length_map]; apply Nat.le_add_right

omit [ExecutorFailureEnforcer ε] in
/-- What is put in front is lighter than what it replaces, and leads to no more executors; the statements
of the first `stopExecutors` are paid for by its being the first. -/
theorem Continues.cost {more : List Instr} (continues : Continues pool next instr more) :
    codeBirths more + instr.constructs ≤ instr.births ∧
      (codeWeight more < instr.weight ∨ (codeWeight more ≤ pool.executors.length + 2 ∧ 0 < instr.weight ∧
        pool.closing = false ∧ next.closing = true)) := by
  cases continues with
  | ends instr heavy inner childless =>
    refine ⟨?_, .inl heavy⟩
    cases instr <;> simp [codeBirths, constructs, Instr.births]
  | stops refs few opened closed =>
    have births : codeBirths (refs.map .stop ++ [.unlock]) = 0 := by
      rw [codeBirths, total_alloc, total, List.map_map]
      simp [Instr.births, Function.comp_def]
    have weights : codeWeight (refs.map .stop ++ [.unlock]) = refs.length + 1 := by
      rw [codeWeight, total_alloc, total, List.map_map]
      simp [weight, Function.comp_def]
    rw [births, weights]
    exact ⟨Nat.le_of_eq rfl, .inr ⟨by omega, by decide, opened, closed⟩⟩
  | kills blockAfterKill => cases blockAfterKill <;> exact ⟨by decide, .inl (by decide)⟩
  | _ =>
    simp [codeBirths, codeWeight, total, constructs, Instr.births, weight, stopNowCode, replacement]

/-- What cannot be executed weighs nothing. -/
theorem weight_pos (ran : (instr.code answers expired).exec pool = some (result, next)) : 0 < instr.weight := by
  cases instr with
  | returned code => cases ran
  | _ => exact Nat.zero_lt_succ _

omit [ExecutorFailureEnforcer ε] in
theorem constructs_le (instr : Instr) : instr.constructs ≤ instr.births := by
  cases instr <;> simp [constructs, births]

end Instr

/-- A thread that has been started goes on. -/
def PoolAction.isExec : PoolAction → Bool
  | .exec .. => true
  | _ => false

namespace PoolThreads

open Instr

variable {ε π : Type} {threads next : PoolThreads ε π} {action : PoolAction}

/-- The statements the threads have still to execute, those included that a first `stopExecutors` leads to. -/
def workload (threads : PoolThreads ε π) : ℕ :=
  total codeWeight threads.activities +
    if threads.pool.closing then 0
    else threads.pool.executors.length + total codeBirths threads.activities + 2

variable [ExecutorFailureEnforcer ε]

/-- Every statement that is executed leaves less work. -/
theorem exec_workload {activity : ℕ} {answers : ClientAnswers} {expired : Bool}
    (ran : threads.exec activity answers expired = some next) : next.workload < threads.workload := by
  obtain ⟨instr, rest, result, read, -, ran, activities⟩ := exec_eq_some.mp ran
  have weights := total_set codeWeight (continuation rest result) read
  have births := total_set codeBirths (continuation rest result) read
  rw [← activities] at weights births
  have length := code_length ran
  have stays := (code_performs ran).stays
  have heavy := weight_pos ran
  have weightWhole : codeWeight (instr :: rest) = instr.weight + codeWeight rest := rfl
  have birthsWhole : codeBirths (instr :: rest) = instr.births + codeBirths rest := rfl
  cases result with
  | error exception =>
    have weightLeft : codeWeight (continuation rest (.error exception)) = 0 := rfl
    have birthsLeft : codeBirths (continuation rest (.error exception)) = 0 := rfl
    have constructs := constructs_le instr
    rw [workload, workload]
    split <;> split
    · omega
    · omega
    · next opened closed => exact absurd (stays closed) opened
    · omega
  | ok more =>
    obtain ⟨fertile, cost⟩ := (code_continues ran).cost
    have weightLeft : codeWeight (continuation rest (.ok more)) = codeWeight more + codeWeight rest :=
      total_append ..
    have birthsLeft : codeBirths (continuation rest (.ok more)) = codeBirths more + codeBirths rest :=
      total_append ..
    rw [workload, workload]
    rcases cost with light | ⟨few, -, opened, closed⟩
    · split <;> split
      · omega
      · omega
      · next opened closed => exact absurd (stays closed) opened
      · omega
    · rw [opened, closed, if_pos rfl, if_neg Bool.false_ne_true]
      omega

theorem runsDown : RunsDown step (·.isExec = true) (fun _ : PoolThreads ε π => True) workload where
  kept _ _ _ _ _ _ := trivial
  falls threads action next _ isExec stepped := by
    cases action with
    | exec activity answers expired => exact exec_workload stepped
    | callStop | callStopNow | close | signal => contradiction

end PoolThreads

end RabbitJobQueue.Model
