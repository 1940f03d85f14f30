import RabbitJobQueue.Proofs.ListOperations
import RabbitJobQueue.Proofs.PoolThreads
import Mathlib.Data.List.Perm.Basic

/-! # The order of addition

Whatever the threads of a pool do, a link of the list leads from an executor to one that was added later:
only `add` makes links, from a tail that an earlier `add` has set to the executor it adds, and every
executor is added at most once. All other statements only take links away.
-/

namespace RabbitJobQueue.Model

open Machine

namespace JobQueueExecutorPool

variable {ε π : Type} {pool middle next : JobQueueExecutorPool ε π} {ref : ExecutorRef}
  {order : List ExecutorRef}

/-- Links and references are only taken away, and executors only constructed. -/
structure Unlinks (pool next : JobQueueExecutorPool ε π) : Prop where
  nextOf : ∀ a b, next.nextOf a = some b → pool.nextOf a = some b
  prevOf : ∀ a b, next.prevOf a = some b → pool.prevOf a = some b
  head : ∀ a, next.head = some a → pool.head = some a
  tail : ∀ a, next.tail = some a → pool.tail = some a
  length : pool.executors.length ≤ next.executors.length

namespace Unlinks

private theorem refl (pool : JobQueueExecutorPool ε π) : Unlinks pool pool :=
  ⟨fun _ _ => id, fun _ _ => id, fun _ => id, fun _ => id, Nat.le_refl _⟩

private theorem trans (first : Unlinks pool middle) (second : Unlinks middle next) : Unlinks pool next :=
  ⟨fun a b link => first.nextOf a b (second.nextOf a b link),
    fun a b link => first.prevOf a b (second.prevOf a b link),
    fun a start => first.head a (second.head a start), fun a last => first.tail a (second.tail a last),
    Nat.le_trans first.length second.length⟩

/-- Every executor found afterwards was there with its links, or has none. -/
theorem of_executors (head : next.head = pool.head) (tail : next.tail = pool.tail)
    (length : pool.executors.length ≤ next.executors.length)
    (executors : ∀ (a : ExecutorRef) (after : Executor), next.executors[a]? = some after →
      (∃ before, pool.executors[a]? = some before ∧ (after.next = before.next ∨ after.next = none) ∧
        (after.prev = before.prev ∨ after.prev = none)) ∨ (after.next = none ∧ after.prev = none)) :
    Unlinks pool next where
  nextOf a b link := by
    obtain ⟨after, read, linked⟩ := Option.bind_eq_some_iff.mp link
    rcases executors a after read with ⟨before, readBefore, kept | lost, -⟩ | ⟨unset, -⟩
    · exact Option.bind_eq_some_iff.mpr ⟨before, readBefore, kept ▸ linked⟩
    · rw [lost] at linked
      contradiction
    · rw [unset] at linked
      contradiction
  prevOf a b link := by
    obtain ⟨after, read, linked⟩ := Option.bind_eq_some_iff.mp link
    rcases executors a after read with ⟨before, readBefore, -, kept | lost⟩ | ⟨-, unset⟩
    · exact Option.bind_eq_some_iff.mpr ⟨before, readBefore, kept ▸ linked⟩
    · rw [lost] at linked
      contradiction
    · rw [unset] at linked
      contradiction
  head a start := head ▸ start
  tail a last := tail ▸ last
  length := length

/-- An assignment to one executor that leaves each of its links or clears it. -/
theorem update {change : Executor → Executor}
    (links : ∀ executor, ((change executor).next = executor.next ∨ (change executor).next = none) ∧
      ((change executor).prev = executor.prev ∨ (change executor).prev = none)) :
    Unlinks pool (pool.update ref change) := by
  refine .of_executors rfl rfl (Nat.le_of_eq (List.length_modify ..).symm) fun a after read => .inl ?_
  obtain ⟨before, readBefore, rfl⟩ := getElem?_modify_eq_some.mp read
  refine ⟨before, readBefore, ?_⟩
  split
  · exact links before
  · exact ⟨.inl rfl, .inl rfl⟩

private theorem of_same (head : next.head = pool.head) (tail : next.tail = pool.tail)
    (executors : next.executors = pool.executors) : Unlinks pool next := by
  refine .of_executors head tail (Nat.le_of_eq (by rw [executors]))
    fun a after read => .inl ⟨after, ?_, .inl rfl, .inl rfl⟩
  rwa [executors] at read

private theorem of_checker (same : SameButChecker pool next) : Unlinks pool next :=
  .of_same (by rw [same]) (by rw [same]) same.executors

private theorem stopExecutor : Unlinks pool (pool.stopExecutor ref) :=
  .update fun _ => ⟨.inl rfl, .inl rfl⟩

private theorem abort : Unlinks pool pool.abort := by
  refine .of_executors rfl rfl (Nat.le_of_eq (List.length_map ..).symm) fun a after read => .inl ?_
  have same : pool.abort.executors[a]? = (pool.executors[a]?).map (·.closeBy .connectionAbort) :=
    List.getElem?_map ..
  obtain ⟨before, readBefore, rfl⟩ := Option.map_eq_some_iff.mp (same.symm.trans read)
  exact ⟨before, readBefore, .inl rfl, .inl rfl⟩

private theorem createNew {answers : ClientAnswers} {created : Except Throwable ExecutorRef}
    (ran : (createNew answers).exec pool = some (created, next)) : Unlinks pool next := by
  rw [JobQueueExecutorPool.createNew, Effect.exec_modify_bind, Effect.exec_get_bind] at ran
  cases provided : answers.channelProvider with
  | error exception =>
    rw [provided] at ran
    cases ran
    exact .of_same rfl rfl rfl
  | ok _ =>
    rw [provided] at ran
    cases ran
    refine .of_executors rfl rfl (by simp) fun a after read => ?_
    rcases getElem?_alloc_eq_some.mp read with old | ⟨-, rfl⟩
    · exact .inl ⟨after, old, .inl rfl, .inl rfl⟩
    · exact .inr ⟨rfl, rfl⟩

private theorem init {answers : ClientAnswers} {subscribed : Except Throwable Unit}
    (ran : (init ref answers).exec pool = some (subscribed, next)) : Unlinks pool next := by
  rw [JobQueueExecutorPool.init] at ran
  cases consumed : answers.basicConsume with
  | error exception =>
    rw [consumed] at ran
    cases ran
    exact .refl _
  | ok _ =>
    rw [consumed] at ran
    simp only [Effect.exec_get_bind] at ran
    split at ran <;> cases ran
    · exact .update fun _ => ⟨.inl rfl, .inl rfl⟩
    · exact .refl _

private theorem detach {fuel : ℕ} {head : Option ExecutorRef} {visits : Except Throwable (List ExecutorRef)}
    (ran : (detach fuel head).exec pool = some (visits, next)) : Unlinks pool next := by
  induction fuel generalizing head pool visits with
  | zero =>
    cases head with
    | none => cases ran; exact .refl _
    | some first => cases ran
  | succ fuel ih =>
    cases head with
    | none => cases ran; exact .refl _
    | some first =>
      rw [JobQueueExecutorPool.detach] at ran
      simp only [Effect.exec_get_bind, Effect.exec_modify_bind, Effect.exec_bind_pure] at ran
      obtain ⟨⟨rest, final⟩, later, same⟩ := Option.map_eq_some_iff.mp ran
      cases same
      have withoutPrev : Unlinks pool (pool.setPrev first none) := .update fun _ => ⟨.inl rfl, .inr rfl⟩
      have withoutNext : Unlinks (pool.setPrev first none) ((pool.setPrev first none).setNext first none) :=
        .update fun _ => ⟨.inr rfl, .inl rfl⟩
      exact (withoutPrev.trans withoutNext).trans (ih later)

private theorem shape (unlinks : Unlinks pool next) (shape : pool.Shape) : next.Shape where
  noPrev a executor read := by
    cases link : executor.prev with
    | none => rfl
    | some b =>
      have old := unlinks.prevOf a b (Option.bind_eq_some_iff.mpr ⟨executor, read, link⟩)
      rw [shape.prevOf] at old
      contradiction
  nextInside a b link := Nat.lt_of_lt_of_le (shape.nextInside a b (unlinks.nextOf a b link)) unlinks.length
  headInside a start := Nat.lt_of_lt_of_le (shape.headInside a (unlinks.head a start)) unlinks.length

end Unlinks

end JobQueueExecutorPool

namespace Instr

/-- The executor a statement is there to add. -/
def adding : Instr → Option ExecutorRef
  | .add ex => some ex
  | _ => none

variable {ε π : Type} [ExecutorFailureEnforcer ε] {pool next : JobQueueExecutorPool ε π}
  {answers : ClientAnswers} {expired : Bool} {instr : Instr}

/-- A statement makes no links unless it is a `remove` or an `add`. -/
theorem code_unlinks {result : Except Throwable (List Instr)}
    (ran : (instr.code answers expired).exec pool = some (result, next)) :
    (instr.adding = none ∧ (pool.Unlinks next ∨ ∃ ex, next = pool.remove ex)) ∨
      ∃ ex, instr = .add ex ∧ next = (JobQueueExecutorPool.add ex pool).2 ∧
        result = (JobQueueExecutorPool.add ex pool).1.map fun _ => [] := by
  cases instr with
  | markFailure =>
    refine .inl ⟨rfl, .inl ?_⟩
    obtain ⟨_, mark, -⟩ := Effect.of_exec_bind_pure ran
    exact .of_checker (JobQueueExecutorPool.markFailure_same mark)
  | shouldHalt ex =>
    refine .inl ⟨rfl, .inl ?_⟩
    rcases Effect.exec_bind_eq_some.mp ran with ⟨halts, checked, check, ran⟩ | ⟨exception, check, -⟩
    · cases halts <;> cases ran <;> exact .of_checker (JobQueueExecutorPool.enforce_same check)
    · exact .of_checker (JobQueueExecutorPool.enforce_same check)
  | reason =>
    refine .inl ⟨rfl, .inl ?_⟩
    obtain ⟨_, tell, -⟩ := Effect.of_exec_bind_pure ran
    exact .of_checker (JobQueueExecutorPool.enforce_same tell)
  | remove ex => cases ran; exact .inl ⟨rfl, .inr ⟨ex, rfl⟩⟩
  | stop ex => cases ran; exact .inl ⟨rfl, .inl .stopExecutor⟩
  | unlessClosing =>
    rw [code, Effect.exec_get_bind] at ran
    split at ran <;> cases ran <;> exact .inl ⟨rfl, .inl (.refl _)⟩
  | createNew =>
    refine .inl ⟨rfl, .inl ?_⟩
    obtain ⟨_, create, -⟩ := Effect.of_exec_bind_pure ran
    exact .createNew create
  | init ex =>
    refine .inl ⟨rfl, .inl ?_⟩
    obtain ⟨_, subscribe, -⟩ := Effect.of_exec_bind_pure ran
    exact .init subscribe
  | add ex =>
    refine .inr ⟨ex, rfl, ?_⟩
    rw [code, Effect.exec_bind_pure, Effect.exec_ofExcept, Option.map_some, Option.some.injEq,
      Prod.mk.injEq] at ran
    exact ⟨ran.2.symm, ran.1.symm⟩
  | stopExecutors =>
    refine .inl ⟨rfl, .inl ?_⟩
    rw [code, Effect.exec_get_bind] at ran
    split at ran
    · cases ran; exact .refl _
    · rw [Effect.exec_modify_bind] at ran
      have closed : pool.Unlinks { pool with closing := true, head := none, tail := none } :=
        ⟨fun _ _ => id, fun _ _ => id, fun _ none => by contradiction, fun _ none => by contradiction,
          Nat.le_refl _⟩
      obtain ⟨_, visit, -⟩ := Effect.of_exec_bind_pure ran
      exact closed.trans (.detach visit)
  | shutdownCB =>
    rw [code, Effect.exec_bind_of_ok (by rw [Effect.exec_swallow]; rfl)] at ran
    cases ran
    exact .inl ⟨rfl, .inl .abort⟩
  | awaitKillAfter blockAfterKill =>
    refine .inl ⟨rfl, .inl ?_⟩
    rw [code, Effect.exec_get_bind] at ran
    split at ran
    · cases ran; exact .refl _
    · split at ran <;> cases ran
      exact .refl _
  | awaitTermination =>
    refine .inl ⟨rfl, .inl ?_⟩
    obtain ⟨_, wait, -⟩ := Effect.of_exec_bind_pure ran
    rw [(JobQueueExecutorPool.awaitTermination_spec wait).2]
    exact .refl _
  | unlock => cases ran; exact .inl ⟨rfl, .inl (.refl _)⟩
  | shutdown => cases ran; exact .inl ⟨rfl, .inl (.of_same rfl rfl rfl)⟩
  | shutdownNow => cases ran; exact .inl ⟨rfl, .inl (.of_same rfl rfl rfl)⟩
  | isTerminated => cases ran; exact .inl ⟨rfl, .inl (.refl _)⟩
  | returned => cases ran

end Instr

namespace JobQueueExecutorPool

variable {ε π : Type} {pool next : JobQueueExecutorPool ε π} {ref : ExecutorRef}
  {order : List ExecutorRef}

/-- Everything the list mentions has been added, and a link leads on in the order of addition. -/
structure AddedInOrder (pool : JobQueueExecutorPool ε π) (order : List ExecutorRef) : Prop
    extends Shape pool where
  linked : ∀ a b, pool.nextOf a = some b → [a, b].Sublist order
  headAdded : ∀ a, pool.head = some a → a ∈ order
  tailAdded : ∀ a, pool.tail = some a → a ∈ order

namespace AddedInOrder

variable (inOrder : pool.AddedInOrder order)
include inOrder

private theorem unlinks (unlinks : Unlinks pool next) : next.AddedInOrder order where
  toShape := unlinks.shape inOrder.toShape
  linked a b link := inOrder.linked a b (unlinks.nextOf a b link)
  headAdded a start := inOrder.headAdded a (unlinks.head a start)
  tailAdded a last := inOrder.tailAdded a (unlinks.tail a last)

private theorem remove (ref : ExecutorRef) : (pool.remove ref).AddedInOrder order := by
  have shape := inOrder.toShape.remove ref
  rw [inOrder.toShape.remove_eq] at shape ⊢
  refine ⟨shape, inOrder.linked, ?_, ?_⟩
  · intro a start
    dsimp only at start
    split at start
    · -- the successor of an added executor has been added
      exact (inOrder.linked ref a start).subset (List.mem_cons_of_mem _ List.mem_cons_self)
    · exact inOrder.headAdded a start
  · intro a last
    dsimp only at last
    split at last
    · contradiction
    · exact inOrder.tailAdded a last

/-- An `add` that returns puts the executor at the end of the order. -/
theorem add (inside : ref < pool.executors.length) {result : Unit}
    (returned : (JobQueueExecutorPool.add ref pool).1 = .ok result) :
    (JobQueueExecutorPool.add ref pool).2.AddedInOrder (order ++ [ref]) := by
  have shape := inOrder.toShape.add inside
  have newest : ref ∈ order ++ [ref] := List.mem_append_right _ List.mem_cons_self
  rcases add_cases ref pool with ⟨-, added⟩ | ⟨-, -, added⟩ | ⟨last, -, tail, added⟩
  · rw [added] at shape ⊢
    refine ⟨shape, fun a b link => (inOrder.linked a b link).trans (List.sublist_append_left ..), ?_, ?_⟩
    · rintro a ⟨⟩
      exact newest
    · rintro a ⟨⟩
      exact newest
  · rw [added] at returned
    contradiction
  · rw [added] at shape ⊢
    refine ⟨shape, ?_, fun a start => List.mem_append_left _ (inOrder.headAdded a start), ?_⟩
    · intro a b link
      rcases nextOf_behind_eq_some link with old | ⟨rfl, rfl⟩
      · exact (inOrder.linked a b old).trans (List.sublist_append_left ..)
      · exact (List.singleton_sublist.mpr (inOrder.tailAdded a tail)).append (.refl [b])
    · rintro a ⟨⟩
      exact newest

end AddedInOrder

/-- An `add` that throws changes nothing. -/
theorem add_of_error {exception : Throwable}
    (thrown : (JobQueueExecutorPool.add ref pool).1 = .error exception) :
    (JobQueueExecutorPool.add ref pool).2 = pool := by
  rcases add_cases ref pool with ⟨-, added⟩ | ⟨-, -, added⟩ | ⟨last, -, -, added⟩
  · rw [added] at thrown
    contradiction
  · rw [added]
  · rw [added] at thrown
    contradiction

end JobQueueExecutorPool

namespace Instr

/-- The executors a statement adds to the list of the pool it is executed on. -/
def adds {ε π : Type} (pool : JobQueueExecutorPool ε π) : Instr → List ExecutorRef
  | .add ex => match (JobQueueExecutorPool.add ex pool).1 with
    | .ok _ => [ex]
    | .error _ => []
  | _ => []

private theorem adding_of_not_establishes {instr : Instr} (other : instr.establishes = false) :
    instr.adding = none := by
  cases instr <;> first | rfl | contradiction

private theorem adds_eq_nil {ε π : Type} {pool : JobQueueExecutorPool ε π} {instr : Instr}
    (other : instr.adding = none) : instr.adds pool = [] := by
  cases instr <;> first | rfl | contradiction

private theorem filterMap_adding_eq_nil {code : List Instr}
    (others : ∀ instr ∈ code, instr.establishes = false) : code.filterMap adding = [] :=
  List.filterMap_eq_nil_iff.mpr fun instr member => adding_of_not_establishes (others instr member)

/-- Only `createNew` puts an `add` in front of the rest, of the executor it has constructed. -/
theorem adding_more {ε π : Type} [ExecutorFailureEnforcer ε] {pool next : JobQueueExecutorPool ε π}
    {answers : ClientAnswers} {expired : Bool} {instr : Instr} {more : List Instr}
    (ran : (instr.code answers expired).exec pool = some (.ok more, next)) :
    more.filterMap adding = [] ∨ (more.filterMap adding = [pool.executors.length] ∧
      next.executors.length = pool.executors.length + 1) := by
  rcases code_more ran with ⟨-, others⟩ | ⟨-, -, rfl⟩ | ⟨rfl, -⟩ | ⟨-, rfl⟩
  · exact .inl (filterMap_adding_eq_nil fun other member => (others other member).1)
  · exact .inl rfl
  · obtain ⟨ex, made, create, ran⟩ := Effect.exec_bind_eq_ok.mp ran
    cases ran
    obtain ⟨rfl, length⟩ := JobQueueExecutorPool.createNew_fresh create
    exact .inr ⟨rfl, length⟩
  · exact .inl rfl

end Instr

namespace PoolThreads

open JobQueueExecutorPool

variable {ε π : Type} {threads next : PoolThreads ε π} {action : PoolAction}
  {actions : List PoolAction} {order : List ExecutorRef}

/-- The executors that have been constructed and are still to be added. -/
def toAdd (activities : List (List Instr)) : List ExecutorRef :=
  activities.flatMap (·.filterMap Instr.adding)

private theorem toAdd_append_of_not_establishes {activities : List (List Instr)} {code : List Instr}
    (others : ∀ instr ∈ code, instr.establishes = false) :
    toAdd (activities ++ [code]) = toAdd activities := by
  rw [toAdd, List.flatMap_append, List.flatMap_singleton, Instr.filterMap_adding_eq_nil others,
    List.append_nil]
  rfl

/-- What one thread is to add stands in one place. -/
theorem toAdd_set {activities : List (List Instr)} {activity : ℕ} {code : List Instr}
    (read : activities[activity]? = some code) : ∃ before after,
      toAdd activities = before ++ code.filterMap Instr.adding ++ after ∧
      ∀ later, toAdd (activities.set activity later) = before ++ later.filterMap Instr.adding ++ after := by
  obtain ⟨inside, same⟩ := List.getElem?_eq_some_iff.mp read
  refine ⟨toAdd (activities.take activity), toAdd (activities.drop (activity + 1)), ?_, fun later => ?_⟩
  · conv_lhs => rw [← List.take_append_drop activity activities, List.drop_eq_getElem_cons inside, same]
    simp only [toAdd, List.flatMap_append, List.flatMap_cons, List.append_assoc]
  · rw [List.set_eq_take_append_cons_drop, if_pos inside]
    simp only [toAdd, List.flatMap_append, List.flatMap_cons, List.append_assoc]

/-- The executors an action adds to the list. -/
def added (threads : PoolThreads ε π) : PoolAction → List ExecutorRef
  | .exec activity _ _ =>
    match threads.activities[activity]? with
    | some (instr :: _) => instr.adds threads.pool
    | _ => []
  | _ => []

variable [ExecutorFailureEnforcer ε]

/-- The executors a run adds to the list, in this order. -/
def additions : PoolThreads ε π → List PoolAction → List ExecutorRef
  | _, [] => []
  | threads, action :: rest =>
    added threads action ++ match step threads action with
      | none => []
      | some next => additions next rest

omit [ExecutorFailureEnforcer ε] in
/-- The list is in the order of addition, and no executor is ever added twice. -/
structure Ordered (threads : PoolThreads ε π) (order : List ExecutorRef) : Prop where
  inOrder : threads.pool.AddedInOrder order
  distinct : (order ++ toAdd threads.activities).Nodup
  inside : ∀ ex ∈ order ++ toAdd threads.activities, ex < threads.pool.executors.length

omit [ExecutorFailureEnforcer ε] in
/-- A step that adds nothing and makes no links. -/
theorem Ordered.fewer (ordered : Ordered threads order) (inOrder : next.pool.AddedInOrder order)
    (length : threads.pool.executors.length ≤ next.pool.executors.length)
    (fewer : (toAdd next.activities).Sublist (toAdd threads.activities)) : Ordered next order := by
  have whole := fewer.append_left order
  refine ⟨inOrder, ordered.distinct.sublist whole, fun ex member => ?_⟩
  exact Nat.lt_of_lt_of_le (ordered.inside ex (whole.subset member)) length

omit [ExecutorFailureEnforcer ε] in
/-- A step that constructs an executor, which a thread is then to add. -/
theorem Ordered.made (ordered : Ordered threads order) (inOrder : next.pool.AddedInOrder order)
    (grown : next.pool.executors.length = threads.pool.executors.length + 1)
    (fresh : (toAdd next.activities).Perm (threads.pool.executors.length :: toAdd threads.activities)) :
    Ordered next order := by
  have whole : (order ++ toAdd next.activities).Perm
      (threads.pool.executors.length :: (order ++ toAdd threads.activities)) :=
    (fresh.append_left order).trans List.perm_middle
  have unknown : threads.pool.executors.length ∉ order ++ toAdd threads.activities := by
    intro member
    exact Nat.lt_irrefl _ (ordered.inside _ member)
  refine ⟨inOrder, whole.nodup_iff.mpr (List.nodup_cons.mpr ⟨unknown, ordered.distinct⟩), ?_⟩
  intro ex member
  rw [grown]
  rcases List.mem_cons.mp (whole.mem_iff.mp member) with rfl | old
  · exact Nat.lt_succ_self _
  · exact Nat.lt_succ_of_lt (ordered.inside ex old)

omit [ExecutorFailureEnforcer ε] in
/-- A step that adds an executor that was still to be added. -/
theorem Ordered.moved {ex : ExecutorRef} (ordered : Ordered threads order)
    (inOrder : next.pool.AddedInOrder (order ++ [ex]))
    (length : next.pool.executors.length = threads.pool.executors.length)
    (moved : (ex :: toAdd next.activities).Perm (toAdd threads.activities)) :
    Ordered next (order ++ [ex]) := by
  have whole : (order ++ [ex] ++ toAdd next.activities).Perm (order ++ toAdd threads.activities) := by
    rw [List.append_assoc, List.singleton_append]
    exact moved.append_left order
  refine ⟨inOrder, whole.nodup_iff.mpr ordered.distinct, ?_⟩
  intro other member
  rw [length]
  exact ordered.inside other (whole.mem_iff.mp member)

omit [ExecutorFailureEnforcer ε] in
private theorem perm_insert {ex : ExecutorRef} {before code after : List ExecutorRef} :
    (before ++ ex :: code ++ after).Perm (ex :: (before ++ code ++ after)) := by
  rw [List.append_assoc, List.append_assoc, List.cons_append]
  exact List.perm_middle

/-- A statement keeps the list in order, with what it adds at the end. -/
theorem Ordered.exec {activity : ℕ} {answers : ClientAnswers} {expired : Bool}
    (ordered : Ordered threads order) (ran : threads.exec activity answers expired = some next) :
    Ordered next (order ++ added threads (.exec activity answers expired)) := by
  obtain ⟨instr, rest, result, read, -, ran, activities⟩ := exec_eq_some.mp ran
  obtain ⟨before, after, whole, changed⟩ := toAdd_set read
  have adds : added threads (.exec activity answers expired) = instr.adds threads.pool := by
    rw [added, read]
  have rests := changed (continuation rest result)
  rw [← activities] at rests
  rw [adds]
  rcases Instr.code_unlinks ran with ⟨nothing, links⟩ | ⟨ex, rfl, linked, returned⟩
  · rw [Instr.adds_eq_nil nothing, List.append_nil]
    rw [List.filterMap_cons_none nothing] at whole
    have inOrder : next.pool.AddedInOrder order := by
      rcases links with unlinks | ⟨ex, removed⟩
      · exact ordered.inOrder.unlinks unlinks
      · rw [removed]
        exact ordered.inOrder.remove ex
    have length := (Instr.code_evolves ran).length_le
    cases result with
    | error exception =>
      apply ordered.fewer inOrder length
      rw [rests, whole, continuation, List.filterMap_nil, List.append_nil]
      exact (List.sublist_append_left ..).append_right after
    | ok more =>
      rw [continuation, List.filterMap_append] at rests
      rcases Instr.adding_more ran with none | ⟨made, grown⟩
      · apply ordered.fewer inOrder length
        rw [rests, whole, none, List.nil_append]
      · apply ordered.made inOrder grown
        rw [rests, whole, made, List.singleton_append]
        exact perm_insert
  · have here : (Instr.add ex).adding = some ex := rfl
    rw [List.filterMap_cons_some here] at whole
    have length : next.pool.executors.length = threads.pool.executors.length := by
      have views := congrArg List.length (add_unlinked ex threads.pool)
      rw [linked]
      simpa using views
    cases outcome : (JobQueueExecutorPool.add ex threads.pool).1 with
    | error exception =>
      have unchanged := linked.trans (add_of_error outcome)
      rw [Instr.adds, outcome, List.append_nil]
      apply ordered.fewer (by rw [unchanged]; exact ordered.inOrder) (Nat.le_of_eq length.symm)
      rw [returned, outcome] at rests
      rw [rests, whole]
      exact ((List.nil_sublist _).append_left before).append_right after
    | ok _ =>
      rw [returned, outcome] at rests
      have moved : (ex :: toAdd next.activities).Perm (toAdd threads.activities) := by
        rw [rests, whole]
        exact perm_insert.symm
      have known : ex ∈ toAdd threads.activities := moved.mem_iff.mp List.mem_cons_self
      have inside := ordered.inside ex (List.mem_append_right _ known)
      rw [Instr.adds, outcome]
      refine ordered.moved ?_ length moved
      rw [linked]
      exact ordered.inOrder.add inside outcome

omit [ExecutorFailureEnforcer ε] in
/-- Code that adds nothing is started, or nothing is, and no links are made. -/
theorem Ordered.unlinks (ordered : Ordered threads order) (unlinks : threads.pool.Unlinks next.pool)
    (same : toAdd next.activities = toAdd threads.activities) (nothing : added threads action = []) :
    Ordered next (order ++ added threads action) := by
  rw [nothing, List.append_nil]
  exact ordered.fewer (ordered.inOrder.unlinks unlinks) unlinks.length (by rw [same])

private theorem Ordered.step (ordered : Ordered threads order) (stepped : threads.step action = some next) :
    Ordered next (order ++ added threads action) := by
  cases action with
  | callStop block blockAfterKill =>
    cases stepped
    refine ordered.unlinks (.refl _) (toAdd_append_of_not_establishes ?_) rfl
    cases block <;> simp [Instr.stopCode, Instr.establishes]
  | callStopNow block =>
    cases stepped
    refine ordered.unlinks (.refl _) (toAdd_append_of_not_establishes ?_) rfl
    cases block <;> simp [Instr.stopNowCode, Instr.establishes]
  | close ex cause =>
    unfold PoolThreads.step at stepped
    dsimp only at stepped
    split at stepped <;> cases stepped
    have unlinks : threads.pool.Unlinks (threads.pool.closeChannel ex cause) :=
      .update fun _ => ⟨.inl rfl, .inl rfl⟩
    exact ordered.unlinks unlinks rfl rfl
  | signal ex =>
    obtain ⟨cause, -, same⟩ := Option.map_eq_some_iff.mp stepped
    cases same
    have unlinks : threads.pool.Unlinks (threads.pool.kill ex cause) :=
      .update fun _ => ⟨.inl rfl, .inl rfl⟩
    refine ordered.unlinks unlinks (toAdd_append_of_not_establishes ?_) rfl
    cases cause.isInitiatedByApplication <;>
      simp [Instr.onConsumerShutdown, Instr.replacement, Instr.establishes]
  | exec activity answers expired => exact ordered.exec stepped

theorem Ordered.run (ordered : Ordered threads order)
    (ran : Machine.run PoolThreads.step threads actions = some next) :
    Ordered next (order ++ additions threads actions) := by
  induction actions generalizing threads order with
  | nil =>
    cases ran
    rw [additions, List.append_nil]
    exact ordered
  | cons action rest ih =>
    obtain ⟨middle, stepped, continued⟩ := run_cons_eq_some.mp ran
    have later := ih (ordered.step stepped) continued
    rw [additions, stepped, ← List.append_assoc]
    exact later

omit [ExecutorFailureEnforcer ε] in
/-- A pool that has just been constructed is in order. -/
theorem ordered_starting {config : ExecutorPoolConfig ε} {clock : Clock} {fresh : JobQueueExecutorPool ε π}
    (constructed : new config clock = .ok fresh) : Ordered (starting fresh) [] := by
  obtain ⟨-, -, rfl⟩ := new_eq_ok constructed
  have nothing : toAdd [Instr.startCode config.poolSize.toNat] = [] := by
    rw [toAdd, List.flatMap_singleton, Instr.startCode, List.filterMap_replicate_of_none rfl]
  have empty : JobQueueExecutorPool.AddedInOrder (starting (ε := ε) (π := π) {
      poolSize := config.poolSize.toNat
      queueName := config.queueName
      failureChecker := config.failureChecker
      clock
      threads := { size := config.poolSize.toNat } }).pool [] :=
    ⟨⟨by simp [starting], by simp [starting, nextOf], by simp [starting]⟩, by simp [starting, nextOf],
      by simp [starting], by simp [starting]⟩
  refine ⟨empty, ?_, ?_⟩
  · rw [List.nil_append, starting, nothing]
    exact .nil
  · intro ex member
    rw [List.nil_append, starting, nothing] at member
    exact absurd member List.not_mem_nil

end PoolThreads

end RabbitJobQueue.Model
