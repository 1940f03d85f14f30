import RabbitJobQueue.Proofs.AdditionOrder
import RabbitJobQueue.Proofs.StopExecutors

/-! # Stopping every executor of the chain once

Links lead on in the order of addition, so the chain from the head ends and passes no executor twice. That
is all the loop of `stopExecutors` needs to come back having called `stop` once on every executor of the
chain. It leaves a pool that is closing, on which every later call returns at once.
-/

namespace RabbitJobQueue.Soundness.StopOnce

open Machine Model Model.JobQueueExecutorPool Model.PoolThreads

variable {ε π : Type} {pool next : JobQueueExecutorPool ε π} {ref : ExecutorRef}
  {chain : List ExecutorRef}

/-- The pool after the loop has visited these executors. -/
def visitAll (pool : JobQueueExecutorPool ε π) (chain : List ExecutorRef) : JobQueueExecutorPool ε π :=
  chain.foldl (fun pool ref => pool.update ref visited) pool

/-- The loop visits the chain from first to last; the fuel of `stopExecutors` is more than enough. -/
theorem stopLoop_of_follows {fuel : ℕ} {head : Option ExecutorRef}
    (follows : Follows pool.nextOf head chain) (distinct : chain.Nodup) (enough : chain.length ≤ fuel) :
    (stopLoop fuel head).exec pool = some (.ok (), visitAll pool chain) := by
  induction chain generalizing fuel head pool with
  | nil =>
    rw [show head = none from follows]
    cases fuel <;> rfl
  | cons first rest ih =>
    obtain ⟨rfl, tail⟩ := follows
    obtain ⟨absent, distinct⟩ := List.nodup_cons.mp distinct
    cases fuel with
    | zero => exact absurd enough (Nat.not_succ_le_zero _)
    | succ fuel =>
      rw [stopLoop_cons]
      apply ih ?_ distinct (Nat.le_of_succ_le_succ enough)
      apply tail.congr
      intro node member
      rw [nextOf_visit]
      exact if_neg (by rintro rfl; exact absent member)

/-- A visit is of one executor: it is unlinked and stopped, and nothing else happens to the pool. -/
theorem visitAll_spec (pool : JobQueueExecutorPool ε π) (distinct : chain.Nodup) :
    visitAll pool chain = { pool with executors := (visitAll pool chain).executors } ∧
      ∀ ref : ExecutorRef, (visitAll pool chain).executors[ref]? = (pool.executors[ref]?).map
        fun executor => if ref ∈ chain then visited executor else executor := by
  induction chain generalizing pool with
  | nil =>
    refine ⟨rfl, fun ref => ?_⟩
    simp only [visitAll, List.foldl_nil, List.not_mem_nil, if_false, Option.map_id']
  | cons first rest ih =>
    obtain ⟨absent, distinct⟩ := List.nodup_cons.mp distinct
    obtain ⟨frame, executors⟩ := ih (pool.update first visited) distinct
    have once : visitAll pool (first :: rest) = visitAll (pool.update first visited) rest := rfl
    rw [once]
    refine ⟨frame.trans rfl, fun ref => ?_⟩
    rw [executors, update_executors, List.getElem?_modify]
    cases pool.executors[ref]? with
    | none => rfl
    | some executor =>
      by_cases here : first = ref
      · subst here
        simp [absent]
      · have member : ref ∈ first :: rest ↔ ref ∈ rest := by
          rw [List.mem_cons, or_iff_right (Ne.symm here)]
        simp [here, member]

/-- What `stopExecutors` makes of an open pool before it comes to the loop. -/
def emptied (pool : JobQueueExecutorPool ε π) : JobQueueExecutorPool ε π :=
  { pool with closing := true, head := none, tail := none }

/-- What the first call of `stopExecutors` does to a pool whose list is this chain. -/
structure StopsChain (pool stopped : JobQueueExecutorPool ε π) (chain : List ExecutorRef) : Prop where
  frame : stopped = { pool with
    closing := true, head := none, tail := none, executors := stopped.executors }
  executors : ∀ ref : ExecutorRef, stopped.executors[ref]? = (pool.executors[ref]?).map
    fun executor => if ref ∈ chain then visited executor else executor

private theorem stopExecutors_stopsChain (opened : pool.closing = false)
    (follows : Follows pool.nextOf pool.head chain)
    (distinct : chain.Nodup) (inside : ∀ ref ∈ chain, ref < pool.executors.length) :
    ∃ stopped, (stopExecutors (ε := ε)).exec pool = some (.ok (), stopped) ∧
      StopsChain pool stopped chain := by
  have few : chain.length ≤ pool.executors.length := by
    have bounded : chain ⊆ List.range pool.executors.length :=
      fun ref member => List.mem_range.mpr (inside ref member)
    have length := (List.subperm_of_subset distinct bounded).length_le
    rwa [List.length_range] at length
  have loop : (stopLoop (ε := ε) (pool.executors.length + 1) pool.head).exec (emptied pool) =
      some (.ok (), visitAll (emptied pool) chain) :=
    stopLoop_of_follows follows distinct (Nat.le_succ_of_le few)
  obtain ⟨frame, executors⟩ := visitAll_spec (emptied pool) distinct
  refine ⟨_, ?_, frame, executors⟩
  rw [stopExecutors, Effect.exec_get_bind, if_neg (by rw [opened]; exact Bool.false_ne_true),
    Effect.exec_modify_bind]
  exact loop

variable [ExecutorFailureEnforcer ε]

private theorem closing_of_reachable {threads later : PoolThreads ε π}
    (reached : Reachable PoolThreads.step threads later) (closing : threads.pool.closing = true) :
    later.pool.closing = true := by
  refine reached.invariant (motive := fun current => current.pool.closing = true) ?_ closing
  intro source action target before stepped
  exact (step_evolves stepped).closing before

/-- In every state that the threads of a pool can reach, links lead on in the order in which the executors
were added, and the chain from the head ends without a repetition. The first call of `stopExecutors` from
there returns, having stopped and unlinked every executor of the chain once and no other; whatever happens
then, a later call returns at once and changes nothing. -/
theorem stopExecutors_once (config : ExecutorPoolConfig ε) (clock : Clock)
    (fresh : JobQueueExecutorPool ε π) (constructed : new config clock = .ok fresh)
    (actions : List PoolAction) (threads : PoolThreads ε π)
    (ran : run PoolThreads.step (starting fresh) actions = some threads) :
    (additions (starting fresh) actions).Nodup ∧
      (∀ a b, threads.pool.nextOf a = some b → [a, b].Sublist (additions (starting fresh) actions)) ∧
      ∃ chain, Follows threads.pool.nextOf threads.pool.head chain ∧
        chain.Sublist (additions (starting fresh) actions) ∧ chain.Nodup ∧
        (threads.pool.closing = false →
          ∃ stopped, (stopExecutors (ε := ε)).exec threads.pool = some (.ok (), stopped) ∧
            StopsChain threads.pool stopped chain ∧
            ∀ later, Reachable PoolThreads.step ⟨stopped, threads.activities⟩ later →
              (stopExecutors (ε := ε)).exec later.pool = some (.ok (), later.pool)) := by
  have ordered := (ordered_starting constructed).run ran
  rw [List.nil_append] at ordered
  have inOrder := ordered.inOrder
  have nodup : (additions (starting fresh) actions).Nodup :=
    ordered.distinct.sublist (List.sublist_append_left ..)
  obtain ⟨chain, follows, sublist⟩ := Follows.exists_of_order nodup
    (fun a _ b link => inOrder.linked a b link) inOrder.headAdded
  refine ⟨nodup, inOrder.linked, chain, follows, sublist, nodup.sublist sublist, fun opened => ?_⟩
  have inside : ∀ ref ∈ chain, ref < threads.pool.executors.length :=
    fun ref member => ordered.inside ref (List.mem_append_left _ (sublist.subset member))
  obtain ⟨stopped, stop, stops⟩ := stopExecutors_stopsChain opened follows (nodup.sublist sublist) inside
  refine ⟨stopped, stop, stops, fun later reached => ?_⟩
  apply stopExecutors_of_closing
  apply closing_of_reachable reached
  rw [stops.frame]

/-- Two iterations of `start`, and then the pool is stopped. -/
theorem stopExecutors_once_two : ∃ fresh : JobQueueExecutorPool MaxFailureEnforcer Unit, ∃ threads,
    new ⟨"jobs", 2, maxTotalFailures 5⟩ (Stream'.const 0) = .ok fresh ∧
      run PoolThreads.step (starting fresh) (List.replicate 6 (.exec 0 {} false)) = some threads ∧
      additions (starting fresh) (List.replicate 6 (.exec 0 {} false)) = [0, 1] ∧
      ∃ chain stopped, Follows threads.pool.nextOf threads.pool.head chain ∧
        (stopExecutors (ε := MaxFailureEnforcer)).exec threads.pool = some (.ok (), stopped) ∧
        StopsChain threads.pool stopped chain := by
  refine ⟨_, _, rfl, rfl, rfl, ?_⟩
  obtain ⟨-, -, chain, follows, -, -, first⟩ := stopExecutors_once (π := Unit)
    ⟨"jobs", 2, maxTotalFailures 5⟩ (Stream'.const 0) _ rfl (List.replicate 6 (.exec 0 {} false)) _ rfl
  obtain ⟨stopped, stop, stops, -⟩ := first rfl
  exact ⟨chain, stopped, follows, stop, stops⟩

end RabbitJobQueue.Soundness.StopOnce
