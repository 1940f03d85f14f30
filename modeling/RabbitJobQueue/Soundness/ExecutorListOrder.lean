import RabbitJobQueue.Machine.Run
import RabbitJobQueue.Proofs.ListOperations

/-! # The executor list and the sequence it stands for

The list stands for the sequence of the executors added and not removed, oldest first. Following `next`
gives that sequence as long as executors are only taken off its front: `remove` reads links to predecessors,
which `add` never sets, so anywhere else it leaves the executor in the chain. Following `prev` gives the
sequence for the first operation only.
-/

namespace RabbitJobQueue.Soundness.ExecutorListOrder

open Machine Model Model.JobQueueExecutorPool

variable {ε π : Type}

inductive ListOperation
  | add (ex : ExecutorRef)
  | remove (ex : ExecutorRef)
deriving DecidableEq, Repr

namespace ListOperation

def ex : ListOperation → ExecutorRef
  | .add ex | .remove ex => ex

/-- The pool a call of the method leaves, whether it returns or throws. -/
def apply (pool : JobQueueExecutorPool ε π) : ListOperation → JobQueueExecutorPool ε π
  | .add ex => (JobQueueExecutorPool.add ex pool).2
  | .remove ex => pool.remove ex

end ListOperation

/-- The sequence the list stands for; `added` are all executors that have ever been in it. -/
structure Roster where
  added : List ExecutorRef := []
  members : List ExecutorRef := []
deriving DecidableEq, Repr

/-- A fresh executor goes to the end; only a member can be removed. -/
def Roster.step (roster : Roster) : ListOperation → Option Roster
  | .add ex => if ex ∈ roster.added then none
    else some { added := ex :: roster.added, members := roster.members ++ [ex] }
  | .remove ex => if ex ∈ roster.members then some { roster with members := roster.members.erase ex }
    else none

/-- The list beside the sequence it stands for. -/
structure Listed (ε π : Type) where
  pool : JobQueueExecutorPool ε π
  roster : Roster := {}

/-- An operation on an executor that exists. -/
def step (state : Listed ε π) (operation : ListOperation) : Option (Listed ε π) :=
  if operation.ex < state.pool.executors.length then
    (state.roster.step operation).map fun roster => { pool := operation.apply state.pool, roster }
  else none

/-- An empty list; the executors to come have no links yet. -/
structure Empty (pool : JobQueueExecutorPool ε π) : Prop where
  head : pool.head = none
  tail : pool.tail = none
  unlinked : ∀ executor ∈ pool.executors, executor.prev = none ∧ executor.next = none

/-- Following `next` from the head gives the sequence. -/
def Forward (state : Listed ε π) : Prop :=
  Follows state.pool.nextOf state.pool.head state.roster.members

structure DoublyLinked (state : Listed ε π) : Prop where
  forward : Forward state
  backward : Follows state.pool.prevOf state.pool.tail state.roster.members.reverse
  headPrev : state.roster.members ≠ [] → ∀ first, state.pool.head = some first →
    state.pool.prevOf first = none
  tailNext : state.roster.members ≠ [] → ∀ last, state.pool.tail = some last →
    state.pool.nextOf last = none

/-- The property holds after every operation. -/
def Always (good : Listed ε π → Prop) (source : Listed ε π) (operations : List ListOperation) : Prop :=
  ∀ first reached, first <+: operations → run step source first = some reached → good reached

/-- An executor that is removed is the oldest member. -/
def TakesFront (state : Listed ε π) (operation : ListOperation) : Prop :=
  ∀ ex, operation = .remove ex → state.roster.members.head? = some ex

variable {state next : Listed ε π} {operation : ListOperation} {operations : List ListOperation}

private theorem step_eq_some : step state operation = some next ↔
    operation.ex < state.pool.executors.length ∧ next.pool = operation.apply state.pool ∧
      state.roster.step operation = some next.roster := by
  obtain ⟨pool, roster⟩ := next
  rw [step]
  split
  · next inside =>
    rw [Option.map_eq_some_iff]
    constructor
    · rintro ⟨_, stepped, same⟩
      cases same
      exact ⟨inside, rfl, stepped⟩
    · rintro ⟨-, rfl, stepped⟩
      exact ⟨roster, stepped, rfl⟩
  · next outside =>
    exact iff_of_false (Option.some_ne_none _).symm fun ⟨inside, _⟩ => outside inside

private theorem rosterStep_add {roster after : Roster} {ex : ExecutorRef} :
    roster.step (.add ex) = some after ↔
    ex ∉ roster.added ∧ after = { added := ex :: roster.added, members := roster.members ++ [ex] } := by
  rw [Roster.step]
  by_cases old : ex ∈ roster.added
  · rw [if_pos old]
    exact iff_of_false (Option.some_ne_none _).symm fun both => both.1 old
  · rw [if_neg old, Option.some.injEq, eq_comm]
    exact (and_iff_right old).symm

private theorem rosterStep_remove {roster after : Roster} {ex : ExecutorRef} :
    roster.step (.remove ex) = some after ↔
      ex ∈ roster.members ∧ after = { roster with members := roster.members.erase ex } := by
  rw [Roster.step]
  by_cases member : ex ∈ roster.members
  · rw [if_pos member, Option.some.injEq, eq_comm]
    exact (and_iff_right member).symm
  · rw [if_neg member]
    exact iff_of_false (Option.some_ne_none _).symm fun both => member both.1

private theorem shape_step (shape : state.pool.Shape) (stepped : step state operation = some next) :
    next.pool.Shape := by
  obtain ⟨inside, same, -⟩ := step_eq_some.mp stepped
  rw [same]
  cases operation with
  | add ex => exact shape.add inside
  | remove ex => exact shape.remove ex

private theorem shape_run (shape : state.pool.Shape) (ran : run step state operations = some next) :
    next.pool.Shape :=
  run_invariant (motive := fun state => state.pool.Shape) (fun _ _ _ => shape_step) shape ran

namespace Empty

variable {pool : JobQueueExecutorPool ε π} (empty : Empty pool)
include empty

private theorem nextOf (ref : ExecutorRef) : pool.nextOf ref = none := by
  rw [JobQueueExecutorPool.nextOf]
  cases read : pool.executors[ref]? with
  | none => rfl
  | some executor => exact (empty.unlinked executor (List.mem_of_getElem? read)).2

private theorem shape : pool.Shape := by
  refine ⟨fun ref executor read => (empty.unlinked executor (List.mem_of_getElem? read)).1, ?_, ?_⟩
  · intro a b link
    rw [empty.nextOf] at link
    contradiction
  · intro a start
    rw [empty.head] at start
    contradiction

private theorem doublyLinked : DoublyLinked { pool } where
  forward := empty.head
  backward := empty.tail
  headPrev nonempty := absurd rfl nonempty
  tailNext nonempty := absurd rfl nonempty

/-- The first operation adds an executor, which is then head and tail. -/
theorem first_step (stepped : step { pool } operation = some next) : ∃ ex, operation = .add ex ∧
    next.pool = { pool with head := some ex, tail := some ex } ∧ next.roster = ⟨[ex], [ex]⟩ := by
  obtain ⟨-, applied, moved⟩ := step_eq_some.mp stepped
  cases operation with
  | remove ex => exact absurd (rosterStep_remove.mp moved).1 List.not_mem_nil
  | add ex =>
    refine ⟨ex, rfl, ?_, (rosterStep_add.mp moved).2⟩
    rw [applied, ListOperation.apply, JobQueueExecutorPool.add, empty.head]

private theorem doublyLinked_first (stepped : step { pool } operation = some next) : DoublyLinked next := by
  have shape := shape_step empty.shape stepped
  obtain ⟨ex, -, samePool, sameRoster⟩ := empty.first_step stepped
  have links : next.pool.nextOf = pool.nextOf := by
    rw [samePool]
    rfl
  have alone : next.pool.nextOf ex = none := by
    rw [links]
    exact empty.nextOf ex
  refine ⟨?_, ?_, fun _ first _ => shape.prevOf first, ?_⟩
  · rw [Forward, sameRoster]
    exact ⟨by rw [samePool], alone⟩
  · rw [sameRoster]
    exact ⟨by rw [samePool], shape.prevOf ex⟩
  · intro _ last same
    rw [samePool] at same
    rw [← Option.some.inj same]
    exact alone

/-- After a second operation following `prev` no longer gives the sequence. -/
theorem not_backward_second {second : ListOperation} {last : Listed ε π}
    (stepped : step { pool } operation = some next) (again : step next second = some last) :
    ¬ DoublyLinked last := by
  have shape := shape_step empty.shape stepped
  have shape' := shape_step shape again
  obtain ⟨ex, -, samePool, sameRoster⟩ := empty.first_step stepped
  obtain ⟨-, applied, moved⟩ := step_eq_some.mp again
  intro linked
  have backward := linked.backward
  cases second with
  | add other =>
    rw [(rosterStep_add.mp moved).2, sameRoster] at backward
    -- the new executor has no predecessor
    have predecessor : last.pool.prevOf other = some ex := backward.2.1
    rw [shape'.prevOf] at predecessor
    contradiction
  | remove other =>
    obtain ⟨member, rest⟩ := rosterStep_remove.mp moved
    rw [sameRoster, List.mem_singleton] at member
    subst member
    rw [rest, sameRoster, List.erase_cons_head] at backward
    -- the removed executor is still the tail
    have stale : last.pool.tail = some other := by
      rw [applied, ListOperation.apply, shape.remove_eq, samePool]
      exact if_neg fun both => both.1 rfl
    rw [show last.pool.tail = none from backward] at stale
    contradiction

end Empty

/-- The list as a queue: what it needs to stand for its sequence as long as only its front is removed. -/
structure Queue (state : Listed ε π) : Prop extends Shape state.pool where
  forward : Forward state
  tailLast : ∀ last, state.roster.members.getLast? = some last → state.pool.tail = some last
  known : ∀ ex ∈ state.roster.members, ex ∈ state.roster.added
  inside : ∀ ex ∈ state.roster.members, ex < state.pool.executors.length
  distinct : state.roster.members.Nodup
  fresh : ∀ ex, ex ∉ state.roster.added → state.pool.nextOf ex = none

/-- A list with a head stands for a sequence with a last element, which is the tail. -/
theorem Queue.exists_last (queue : Queue state) (start : state.pool.head ≠ none) :
    ∃ init last, state.roster.members = init ++ [last] ∧ state.pool.tail = some last := by
  rcases List.eq_nil_or_concat state.roster.members with empty | ⟨init, last, split⟩
  · have forward := queue.forward.head_eq
    rw [empty] at forward
    exact absurd forward start
  · rw [List.concat_eq_append] at split
    refine ⟨init, last, split, queue.tailLast last ?_⟩
    rw [split, List.getLast?_concat]

private theorem Queue.distinct_add {ex : ExecutorRef} (queue : Queue state)
    (unused : ex ∉ state.roster.added) : (state.roster.members ++ [ex]).Nodup := by
  apply List.nodup_append.mpr
  refine ⟨queue.distinct, List.pairwise_singleton _ ex, ?_⟩
  rintro old member new added rfl
  rw [List.mem_singleton.mp added] at member
  exact unused (queue.known ex member)

/-- A fresh executor at the end of the sequence, which is the tail of the list. -/
theorem Queue.grown {ex : ExecutorRef} (queue : Queue state) (unused : ex ∉ state.roster.added)
    (inside : ex < state.pool.executors.length)
    (roster : next.roster = { added := ex :: state.roster.added, members := state.roster.members ++ [ex] })
    (shape : next.pool.Shape) (length : next.pool.executors.length = state.pool.executors.length)
    (forward : Forward next) (tail : next.pool.tail = some ex)
    (kept : ∀ other, other ∉ next.roster.added → next.pool.nextOf other = state.pool.nextOf other) :
    Queue next := by
  refine ⟨shape, forward, ?_, ?_, ?_, ?_, ?_⟩
  · intro last same
    rw [roster, List.getLast?_concat] at same
    exact tail.trans same
  · intro other member
    rw [roster] at member ⊢
    rcases List.mem_append.mp member with old | new
    · exact List.mem_cons_of_mem _ (queue.known other old)
    · rw [List.mem_singleton.mp new]
      exact List.mem_cons_self
  · intro other member
    rw [length]
    rw [roster] at member
    rcases List.mem_append.mp member with old | new
    · exact queue.inside other old
    · rw [List.mem_singleton.mp new]
      exact inside
  · rw [roster]
    exact queue.distinct_add unused
  · intro other unknown
    rw [kept other unknown]
    rw [roster, List.mem_cons, not_or] at unknown
    exact queue.fresh other unknown.2

private theorem Queue.add {ex : ExecutorRef} (queue : Queue state)
    (stepped : step state (.add ex) = some next) : Queue next := by
  have shape := shape_step queue.toShape stepped
  obtain ⟨inside, applied, moved⟩ := step_eq_some.mp stepped
  obtain ⟨unused, roster⟩ := rosterStep_add.mp moved
  have alone := queue.fresh ex unused
  have grown := queue.grown unused inside roster shape
  rw [ListOperation.apply] at applied
  rcases add_cases ex state.pool with ⟨start, added⟩ | ⟨start, lost, -⟩ | ⟨last, start, tail, added⟩
  · -- the list was empty, and its sequence with it
    have empty : state.roster.members = [] := queue.forward.unique start
    rw [added] at applied
    have links : next.pool.nextOf = state.pool.nextOf := by
      rw [applied]
      rfl
    refine grown (by rw [applied]) ?_ (by rw [applied]) fun other _ => by rw [links]
    rw [Forward, roster, empty]
    exact ⟨by rw [applied], by rw [links]; exact alone⟩
  · obtain ⟨init, last, -, tail⟩ := queue.exists_last start
    rw [tail] at lost
    contradiction
  · obtain ⟨init, other, split, same⟩ := queue.exists_last start
    cases tail.symm.trans same
    have member : last ∈ state.roster.members := by
      rw [split]
      exact List.mem_append_right _ List.mem_cons_self
    rw [added] at applied
    have links : next.pool.nextOf = fun a => if a = last then some ex else state.pool.nextOf a := by
      rw [applied]
      exact nextOf_behind (queue.inside last member)
    have kept : ∀ node, node ≠ last → next.pool.nextOf node = state.pool.nextOf node := by
      intro node apart
      rw [links]
      exact if_neg apart
    refine grown (by rw [applied]; exact behind_length) ?_ (by rw [applied]; rfl) ?_
    · have follows := queue.forward
      have distinct := queue.distinct_add unused
      have head : next.pool.head = state.pool.head := by rw [applied]; rfl
      rw [Forward, split] at follows
      rw [split, List.append_assoc] at distinct
      rw [Forward, roster, split, List.append_assoc, head]
      exact follows.snoc alone (by rw [links]; exact if_pos rfl) kept distinct
    · intro other unknown
      apply kept
      rintro rfl
      rw [roster, List.mem_cons, not_or] at unknown
      exact unknown.2 (queue.known other member)

private theorem Queue.remove {ex : ExecutorRef} (queue : Queue state)
    (front : state.roster.members.head? = some ex)
    (stepped : step state (.remove ex) = some next) : Queue next := by
  have shape := shape_step queue.toShape stepped
  obtain ⟨-, applied, moved⟩ := step_eq_some.mp stepped
  obtain ⟨-, roster⟩ := rosterStep_remove.mp moved
  obtain ⟨rest, split⟩ := List.head?_eq_some_iff.mp front
  have start : state.pool.head = some ex := queue.forward.head_eq.trans front
  rw [ListOperation.apply, queue.toShape.remove_eq, if_pos start, if_neg fun both => both.1 start] at applied
  have links : next.pool.nextOf = state.pool.nextOf := by
    rw [applied]
    rfl
  have members : next.roster.members = rest := by
    rw [roster, split, List.erase_cons_head]
  have among : ∀ other ∈ next.roster.members, other ∈ state.roster.members := by
    intro other member
    rw [split]
    exact List.mem_cons_of_mem _ (members ▸ member)
  refine ⟨shape, ?_, ?_, ?_, ?_, ?_, ?_⟩
  · have follows := queue.forward
    rw [Forward, split] at follows
    rw [Forward, members, links, applied]
    exact follows.2
  · intro last same
    rw [applied]
    apply queue.tailLast
    rw [members] at same
    rw [split, List.getLast?_cons, same, Option.getD_some]
  · intro other member
    rw [roster]
    exact queue.known other (among other member)
  · intro other member
    rw [applied]
    exact queue.inside other (among other member)
  · have distinct := queue.distinct
    rw [split] at distinct
    rw [members]
    exact distinct.of_cons
  · intro other unknown
    rw [roster] at unknown
    rw [links]
    exact queue.fresh other unknown

private theorem Queue.step (queue : Queue state) (front : TakesFront state operation)
    (stepped : step state operation = some next) : Queue next := by
  cases operation with
  | add ex => exact queue.add stepped
  | remove ex => exact queue.remove (front ex rfl) stepped

/-- A member that is not the oldest stays in the chain when it is removed. -/
theorem takesFront_of_forward (shape : state.pool.Shape) (before : Forward state) (after : Forward next)
    (stepped : step state operation = some next) : TakesFront state operation := by
  rintro ex rfl
  obtain ⟨-, applied, moved⟩ := step_eq_some.mp stepped
  obtain ⟨member, roster⟩ := rosterStep_remove.mp moved
  by_contra other
  have start : state.pool.head ≠ some ex := by
    rw [before.head_eq]
    exact other
  rw [ListOperation.apply, shape.remove_eq, if_neg start] at applied
  rw [Forward, applied, roster] at after
  have same : state.roster.members = state.roster.members.erase ex := before.unique after
  have shorter := List.length_erase_of_mem member
  rw [← same] at shorter
  have nonempty := List.length_pos_of_mem member
  omega

private theorem Empty.queue {pool : JobQueueExecutorPool ε π} (empty : Empty pool) : Queue { pool } where
  toShape := empty.shape
  forward := empty.head
  tailLast last same := by contradiction
  known ex member := absurd member List.not_mem_nil
  inside ex member := absurd member List.not_mem_nil
  distinct := .nil
  fresh ex _ := empty.nextOf ex

/-- From an empty list, the list is doubly linked after every operation if and only if there is at most one;
following `next` from the head gives the executors added and not removed, in their order, after every
operation if and only if no executor is removed while an older one is left. -/
theorem doublyLinked_iff (pool : JobQueueExecutorPool ε π) (empty : Empty pool)
    (operations : List ListOperation) (final : Listed ε π)
    (ran : run step { pool } operations = some final) :
    (Always DoublyLinked { pool } operations ↔ operations.length ≤ 1) ∧
      (Always Forward { pool } operations ↔ Along step TakesFront { pool } operations) := by
  refine ⟨⟨?_, ?_⟩, ?_, ?_⟩
  · intro always
    by_contra more
    match operations, ran with
    | [], _ | [_], _ => simp at more
    | first :: second :: rest, ran =>
      obtain ⟨middle, stepped, later⟩ := run_cons_eq_some.mp ran
      obtain ⟨last, again, -⟩ := run_cons_eq_some.mp later
      refine empty.not_backward_second stepped again (always [first, second] last ⟨rest, rfl⟩ ?_)
      exact run_cons_eq_some.mpr ⟨middle, stepped, run_singleton.trans again⟩
  · intro few first reached start ran
    match operations, few, first, start, ran with
    | _, _, [], _, ran =>
      cases ran
      exact empty.doublyLinked
    | _, _, [operation], _, ran => exact empty.doublyLinked_first (run_singleton.symm.trans ran)
    | _, few, _ :: _ :: _, start, _ =>
      have length := start.length_le
      simp only [List.length_cons] at length
      omega
  · intro always before operation after state split reached
    obtain ⟨middle, same, continued⟩ := run_append_eq_some.mp (split ▸ ran)
    cases same.symm.trans reached
    obtain ⟨next, stepped, -⟩ := run_cons_eq_some.mp continued
    have start : before ++ [operation] <+: operations := ⟨after, by rw [split, List.append_assoc]; rfl⟩
    refine takesFront_of_forward (shape_run empty.shape reached) ?_ ?_ stepped
    · exact always before state ((List.prefix_append ..).trans start) reached
    · exact always _ next start (run_snoc reached stepped)
  · intro fronts first reached start continued
    obtain ⟨after, rfl⟩ := start
    exact (run_invariant_along (motive := Queue) (fun _ _ _ => Queue.step) empty.queue fronts.left
      continued).forward

/-- Two executors that have not been added yet. -/
def twoExecutors : JobQueueExecutorPool MaxFailureEnforcer Unit where
  poolSize := 2
  queueName := "jobs"
  failureChecker := maxTotalFailures 5
  clock := Stream'.const 0
  threads := { size := 2 }
  executors := [{ id := "jobs-consumer-pool-1" }, { id := "jobs-consumer-pool-2" }]

/-- The first executor is added and removed. -/
theorem doublyLinked_iff_once : ∃ final,
    run step { pool := twoExecutors } [.add 0, .remove 0] = some final ∧
      (Always DoublyLinked { pool := twoExecutors } [.add 0, .remove 0] ↔
        [ListOperation.add 0, .remove 0].length ≤ 1) ∧
      (Always Forward { pool := twoExecutors } [.add 0, .remove 0] ↔
        Along step TakesFront { pool := twoExecutors } [.add 0, .remove 0]) :=
  ⟨_, rfl, doublyLinked_iff twoExecutors ⟨rfl, rfl, by decide⟩ [.add 0, .remove 0] _ rfl⟩

/-- The second of two executors is added without a predecessor, and stays in the chain when it is removed. -/
theorem second_executor_stays : ∃ added removed,
    run step { pool := twoExecutors } [.add 0, .add 1] = some added ∧ ¬ DoublyLinked added ∧
      run step { pool := twoExecutors } [.add 0, .add 1, .remove 1] = some removed ∧
      removed.roster.members = [0] ∧ Follows removed.pool.nextOf removed.pool.head [0, 1] := by
  refine ⟨_, _, rfl, ?_, rfl, rfl, rfl, rfl, rfl⟩
  intro linked
  have predecessor := linked.backward.2.1
  contradiction

end RabbitJobQueue.Soundness.ExecutorListOrder
