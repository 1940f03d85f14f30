import RabbitJobQueue.Proofs.Replacement

/-! # The executor list over a pool's life

`add` never assigns `prev`, so no executor ever has a predecessor, and `remove` is left with two
effects: it takes the head off, or it forgets the tail. As long as no consumer dies whose executor
is the tail and not the head, every subscribed executor is stopped or on the list (`Tidy`). The
first such death leaves the list without a tail for good: its head is kept alive by a dead
executor, every further replacement is refused, and one subscribed executor is always missing
(`Broken`).
-/

namespace RabbitJobQueue.Model.JobQueueExecutorPool

open Machine

variable {ε π : Type} {pool next : JobQueueExecutorPool ε π} {ref other : ExecutorRef}
  {executor : Executor}

theorem nextOf_update_of_same {change : Executor → Executor}
    (same : ∀ executor, (change executor).next = executor.next) :
    (pool.update ref change).nextOf = pool.nextOf := by
  funext a
  unfold nextOf
  rw [update_executors, List.getElem?_modify]
  cases pool.executors[a]? with
  | none => rfl
  | some executor => by_cases here : ref = a <;> simp [here, same]

theorem nextOf_setNext {target : Option ExecutorRef} (inside : ref < pool.executors.length) :
    (pool.setNext ref target).nextOf = fun a => if a = ref then target else pool.nextOf a := by
  funext a
  unfold nextOf setNext
  rw [update_executors]
  by_cases here : a = ref
  · subst here
    rw [if_pos rfl, List.getElem?_modify_eq, List.getElem?_eq_getElem inside]
    rfl
  · rw [if_neg here, getElem?_modify_other (Ne.symm here)]

/-- A fresh executor has no successor, and neither has a reference to nothing. -/
theorem nextOf_withNew : pool.withNew.nextOf = pool.nextOf := by
  funext a
  unfold nextOf withNew
  dsimp only
  rcases Nat.lt_trichotomy a pool.executors.length with old | fresh | outside
  · rw [List.getElem?_append_left old]
  · subst fresh
    simp
  · rw [List.getElem?_eq_none (by rw [List.length_append, List.length_singleton]; omega),
      List.getElem?_eq_none (by omega)]

private theorem nextOf_eq_none_of_le (outside : pool.executors.length ≤ ref) : pool.nextOf ref = none := by
  rw [nextOf, List.getElem?_eq_none outside]
  rfl

theorem add_head_ne_none (ref : ExecutorRef) (pool : JobQueueExecutorPool ε π) :
    (add ref pool).2.head ≠ none := by
  rw [add]
  split
  · exact Option.some_ne_none ref
  · next first start =>
    split
    · rw [start]; exact Option.some_ne_none first
    · change pool.head ≠ none
      rw [start]
      exact Option.some_ne_none first

/-- On a list with a head and no tail a new executor is subscribed, and `add` throws. -/
theorem add_of_refusal (listed : pool.head ≠ none) (lost : pool.tail = none) :
    add pool.executors.length pool.withNew = (.error .nullPointer, pool.withNew) := by
  obtain ⟨first, start⟩ := Option.ne_none_iff_exists'.mp listed
  rw [add]
  rw [show pool.withNew.head = some first from start, show pool.withNew.tail = none from lost]

/-- What every pool in its life satisfies: no predecessors, and no dangling references. -/
structure Shape (pool : JobQueueExecutorPool ε π) : Prop where
  noPrev : ∀ (ref : ExecutorRef) (executor : Executor), pool.executors[ref]? = some executor →
    executor.prev = none
  nextInside : ∀ a b, pool.nextOf a = some b → b < pool.executors.length
  headInside : ∀ a, pool.head = some a → a < pool.executors.length

namespace Shape

variable (shape : pool.Shape)
include shape

theorem prevOf (ref : ExecutorRef) : pool.prevOf ref = none := by
  rw [JobQueueExecutorPool.prevOf]
  cases read : pool.executors[ref]? with
  | none => rfl
  | some executor => exact shape.noPrev ref executor read

private theorem setPrev_none (ref : ExecutorRef) : pool.setPrev ref none = pool := by
  have fixed : pool.executors.modify ref ({ · with prev := none }) = pool.executors := by
    apply modify_eq_of_fixed
    intro executor read
    rw [← shape.noPrev ref executor read]
  rw [setPrev, update, fixed]

/-- With no predecessors there are two effects left for `remove` to have. -/
theorem remove_eq (ref : ExecutorRef) : pool.remove ref = { pool with
    head := if pool.head = some ref then pool.nextOf ref else pool.head
    tail := if pool.head ≠ some ref ∧ pool.tail = some ref then none else pool.tail } := by
  rw [remove]
  by_cases first : pool.head = some ref
  · rw [if_pos first, if_pos first, if_neg (fun both => both.1 first)]
    have moved : Shape { pool with head := pool.nextOf ref } :=
      ⟨shape.noPrev, shape.nextInside, fun a same => shape.nextInside ref a same⟩
    dsimp only
    cases link : pool.nextOf ref with
    | none => rfl
    | some after => rw [link] at moved; exact moved.setPrev_none after
  · rw [if_neg first, if_neg first]
    by_cases last : pool.tail = some ref
    · rw [if_pos last, if_pos ⟨first, last⟩]
      simp only [shape.prevOf]
    · rw [if_neg last, if_neg (fun both => last both.2)]
      simp only [shape.prevOf]
      cases pool.nextOf ref with
      | none => dsimp only; rw [shape.prevOf]
      | some after => dsimp only; rw [shape.setPrev_none, shape.prevOf]

private theorem reaches_inside (reached : pool.Reaches other) : other < pool.executors.length := by
  obtain ⟨first, start, path⟩ := reached
  induction path with
  | refl => exact shape.headInside first start
  | tail _ link _ => exact shape.nextInside _ _ link

theorem dropped_executors (ref : ExecutorRef) :
    (pool.dropped ref).executors = pool.executors.modify ref Executor.stop := by
  rw [dropped, shape.remove_eq]
  rfl

private theorem dropped_nextOf (ref : ExecutorRef) : (pool.dropped ref).nextOf = pool.nextOf := by
  rw [dropped, shape.remove_eq]
  exact nextOf_update_of_same fun _ => rfl

theorem dropped_head (ref : ExecutorRef) : (pool.dropped ref).head =
    if pool.head = some ref then pool.nextOf ref else pool.head := by
  rw [dropped, shape.remove_eq]
  rfl

theorem dropped_tail (ref : ExecutorRef) : (pool.dropped ref).tail =
    if pool.head ≠ some ref ∧ pool.tail = some ref then none else pool.tail := by
  rw [dropped, shape.remove_eq]
  rfl

/-- Only the dropped executor leaves the list. -/
theorem reaches_dropped (distinct : other ≠ ref) (reached : pool.Reaches other) :
    (pool.dropped ref).Reaches other := by
  unfold Reaches at reached ⊢
  rw [shape.dropped_nextOf, shape.dropped_head]
  by_cases first : pool.head = some ref
  · rw [if_pos first]
    rw [first] at reached
    exact reached.advance distinct
  · rwa [if_neg first]

theorem dropped (ref : ExecutorRef) : (pool.dropped ref).Shape where
  noPrev a executor read := by
    rw [shape.dropped_executors] at read
    obtain ⟨before, readBefore, rfl⟩ := getElem?_modify_eq_some.mp read
    have none := shape.noPrev a before readBefore
    split <;> exact none
  nextInside a b link := by
    rw [shape.dropped_nextOf] at link
    rw [shape.dropped_executors, List.length_modify]
    exact shape.nextInside a b link
  headInside a start := by
    rw [shape.dropped_head] at start
    rw [shape.dropped_executors, List.length_modify]
    split at start
    · exact shape.nextInside ref a start
    · exact shape.headInside a start

private theorem withNew : pool.withNew.Shape where
  noPrev a executor read := by
    rcases getElem?_alloc_eq_some.mp read with old | ⟨-, rfl⟩
    · exact shape.noPrev a executor old
    · rfl
  nextInside a b link := by
    rw [nextOf_withNew] at link
    exact Nat.lt_of_lt_of_le (shape.nextInside a b link) (by simp [JobQueueExecutorPool.withNew])
  headInside a start := Nat.lt_of_lt_of_le (shape.headInside a start)
    (by simp [JobQueueExecutorPool.withNew])

private theorem not_reaches_new : ¬ pool.Reaches pool.executors.length :=
  fun reached => Nat.lt_irrefl _ (shape.reaches_inside reached)

end Shape

/-- What changes neither links nor references keeps the shape. -/
theorem Shape.of_same (shape : pool.Shape)
    (prev : ∀ (ref : ExecutorRef) (executor : Executor), next.executors[ref]? = some executor →
      executor.prev = none)
    (length : next.executors.length = pool.executors.length) (link : next.nextOf = pool.nextOf)
    (head : next.head = pool.head) : next.Shape :=
  ⟨prev, fun a b same => length ▸ shape.nextInside a b (link ▸ same),
    fun a same => length ▸ shape.headInside a (head ▸ same)⟩

/-- The pools have the same list; executors of the second may have died. -/
structure SameList (pool next : JobQueueExecutorPool ε π) : Prop where
  head : next.head = pool.head
  tail : next.tail = pool.tail
  length : next.executors.length = pool.executors.length
  executor : ∀ (ref : ExecutorRef) (after : Executor), next.executors[ref]? = some after →
    ∃ before, pool.executors[ref]? = some before ∧ after.prev = before.prev ∧
      after.next = before.next ∧ after.subscribed = before.subscribed ∧
      after.stopCalls = before.stopCalls ∧ (after.isLive = true → before.isLive = true)

theorem sameList_kill {cause : CloseCause} {checked : JobQueueExecutorPool ε π}
    (same : SameButChecker (pool.kill ref cause) checked) : SameList pool checked where
  head := by rw [same]; rfl
  tail := by rw [same]; rfl
  length := by rw [same.executors, kill, update_executors, List.length_modify]
  executor a after read := by
    rw [same.executors] at read
    obtain ⟨before, readBefore, rfl⟩ := getElem?_modify_eq_some.mp read
    refine ⟨before, readBefore, ?_⟩
    split
    · exact ⟨rfl, rfl, rfl, rfl, by simp [Executor.isLive]⟩
    · exact ⟨rfl, rfl, rfl, rfl, id⟩

namespace SameList

variable (same : SameList pool next)
include same

private theorem nextOf : next.nextOf = pool.nextOf := by
  funext a
  unfold JobQueueExecutorPool.nextOf
  cases read : next.executors[a]? with
  | none =>
    have outside := same.length ▸ List.getElem?_eq_none_iff.mp read
    rw [List.getElem?_eq_none outside]
  | some after =>
    obtain ⟨before, readBefore, -, link, -⟩ := same.executor a after read
    rw [readBefore]
    exact link

theorem reaches (ref : ExecutorRef) : next.Reaches ref ↔ pool.Reaches ref := by
  rw [Reaches, Reaches, same.nextOf, same.head]

theorem shape (shape : pool.Shape) : next.Shape := by
  refine shape.of_same (fun a after read => ?_) same.length same.nextOf same.head
  obtain ⟨before, readBefore, prev, -⟩ := same.executor a after read
  rw [prev]
  exact shape.noPrev a before readBefore

theorem isLive (dead : pool.isLive ref = false) : next.isLive ref = false := by
  by_contra alive
  rw [Bool.not_eq_false, isLive_iff] at alive
  obtain ⟨after, read, live⟩ := alive
  obtain ⟨before, readBefore, -, -, -, -, kept⟩ := same.executor ref after read
  rw [isLive_iff.mpr ⟨before, readBefore, kept live⟩] at dead
  contradiction

end SameList

/-- The death of this executor makes `remove` forget the tail. -/
def TailRemoval (pool : JobQueueExecutorPool ε π) (ref : ExecutorRef) : Prop :=
  pool.tail = some ref ∧ pool.head ≠ some ref

/-- Every subscribed executor has been stopped or is on the list, and the tail is its last node. -/
structure Tidy (pool : JobQueueExecutorPool ε π) : Prop extends Shape pool where
  tailLast : pool.head ≠ none → ∃ last, pool.tail = some last ∧ pool.Reaches last ∧
    pool.nextOf last = none
  accounted : ∀ (ref : ExecutorRef) (executor : Executor), pool.executors[ref]? = some executor →
    executor.subscribed = true → 0 < executor.stopCalls ∨ pool.Reaches ref

theorem Tidy.of_sameList (tidy : pool.Tidy) (same : SameList pool next) : next.Tidy where
  toShape := same.shape tidy.toShape
  tailLast nonempty := by
    rw [same.head] at nonempty
    obtain ⟨last, tail, reached, final⟩ := tidy.tailLast nonempty
    exact ⟨last, same.tail.trans tail, (same.reaches last).mpr reached, by rw [same.nextOf, final]⟩
  accounted a after read subscribed := by
    obtain ⟨before, readBefore, -, -, registered, calls, -⟩ := same.executor a after read
    rw [calls, same.reaches]
    exact tidy.accounted a before readBefore (registered ▸ subscribed)

/-- A new executor starts the list anew. -/
theorem Tidy.start (tidy : pool.Tidy) (empty : pool.head = none) : Tidy { pool.withNew with
    head := some pool.executors.length, tail := some pool.executors.length } := by
  have shape := tidy.toShape
  have atEnd : pool.nextOf pool.executors.length = none := nextOf_eq_none_of_le (Nat.le_refl _)
  refine ⟨⟨shape.withNew.noPrev, shape.withNew.nextInside, ?_⟩, ?_, ?_⟩
  · rintro a ⟨⟩
    simp [withNew]
  · intro _
    refine ⟨pool.executors.length, rfl, Linked.head_self, ?_⟩
    change pool.withNew.nextOf pool.executors.length = none
    rw [nextOf_withNew, atEnd]
  · intro a executor read subscribed
    rcases getElem?_alloc_eq_some.mp read with old | ⟨rfl, -⟩
    · rcases tidy.accounted a executor old subscribed with stopped | reached
      · exact .inl stopped
      · rw [Reaches, empty] at reached
        exact absurd reached not_linked_none
    · exact .inr Linked.head_self

/-- The pool with its new executor behind the tail. -/
def withLast (pool : JobQueueExecutorPool ε π) (last : ExecutorRef) : JobQueueExecutorPool ε π :=
  { pool.withNew.setNext last (some pool.executors.length) with tail := some pool.executors.length }

private theorem withLast_nextOf {last : ExecutorRef} (inside : last < pool.executors.length) :
    (pool.withLast last).nextOf =
      fun a => if a = last then some pool.executors.length else pool.nextOf a := by
  change (pool.withNew.setNext last (some pool.executors.length)).nextOf = _
  rw [nextOf_setNext, nextOf_withNew]
  simp only [withNew, List.length_append]
  exact Nat.lt_add_right _ inside

private theorem withLast_length (last : ExecutorRef) :
    (pool.withLast last).executors.length = pool.executors.length + 1 := by
  change (pool.withNew.executors.modify last _).length = _
  simp [withNew]

private theorem Shape.withLast (shape : pool.Shape) {last : ExecutorRef}
    (inside : last < pool.executors.length) : (pool.withLast last).Shape where
  noPrev a executor read := by
    obtain ⟨before, readBefore, rfl⟩ := getElem?_modify_eq_some.mp read
    have none := shape.withNew.noPrev a before readBefore
    split <;> exact none
  nextInside a b link := by
    rw [withLast_nextOf inside] at link
    rw [withLast_length]
    dsimp only at link
    split at link
    · cases link
      exact Nat.lt_succ_self _
    · exact Nat.lt_succ_of_lt (shape.nextInside a b link)
  headInside a same := by
    rw [withLast_length]
    exact Nat.lt_succ_of_lt (shape.headInside a same)

/-- A new executor is linked behind the tail. -/
theorem Tidy.append (tidy : pool.Tidy) {last : ExecutorRef} (reached : pool.Reaches last)
    (final : pool.nextOf last = none) : (pool.withLast last).Tidy := by
  have shape := tidy.toShape
  have inside := shape.reaches_inside reached
  have atEnd : pool.nextOf pool.executors.length = none := nextOf_eq_none_of_le (Nat.le_refl _)
  have grown : ∀ a, (pool.withLast last).Reaches a ↔ pool.Reaches a ∨ a = pool.executors.length := by
    intro a
    rw [Reaches, withLast_nextOf inside]
    exact Linked.append_iff reached final atEnd
  refine ⟨shape.withLast inside, ?_, ?_⟩
  · intro _
    refine ⟨pool.executors.length, rfl, (grown _).mpr (.inr rfl), ?_⟩
    rw [withLast_nextOf inside]
    dsimp only
    rw [if_neg (Nat.ne_of_gt inside), atEnd]
  · intro a executor read subscribed
    obtain ⟨before, readBefore, same⟩ := getElem?_modify_eq_some.mp read
    have fields : executor.subscribed = before.subscribed ∧ executor.stopCalls = before.stopCalls := by
      rw [same]
      split <;> exact ⟨rfl, rfl⟩
    rw [fields.2]
    rcases getElem?_alloc_eq_some.mp readBefore with old | ⟨fresh, -⟩
    · rcases tidy.accounted a before old (fields.1 ▸ subscribed) with stopped | known
      · exact .inl stopped
      · exact .inr ((grown a).mpr (.inl known))
    · exact .inr ((grown a).mpr (.inr fresh))

/-- `add` puts a new executor into a tidy list. -/
theorem Tidy.add (tidy : pool.Tidy) :
    (add pool.executors.length pool.withNew).1 = .ok () ∧
      (add pool.executors.length pool.withNew).2.Tidy := by
  rw [JobQueueExecutorPool.add]
  cases start : pool.head with
  | none =>
    rw [show pool.withNew.head = none from start]
    exact ⟨rfl, tidy.start start⟩
  | some first =>
    obtain ⟨last, tail, reached, final⟩ := tidy.tailLast (by rw [start]; exact Option.some_ne_none _)
    rw [show pool.withNew.head = some first from start]
    dsimp only
    rw [show pool.withNew.tail = some last from tail]
    exact ⟨rfl, tidy.append reached final⟩

/-- Dropping an executor keeps the list tidy unless it makes `remove` forget the tail. -/
theorem Tidy.dropped (tidy : pool.Tidy) (kept : ¬ pool.TailRemoval ref) : (pool.dropped ref).Tidy := by
  have shape := tidy.toShape
  refine ⟨shape.dropped ref, ?_, ?_⟩
  · intro nonempty
    rw [shape.dropped_head] at nonempty
    rw [shape.dropped_tail, shape.dropped_nextOf]
    by_cases first : pool.head = some ref
    · rw [if_pos first] at nonempty
      obtain ⟨last, tail, reached, final⟩ := tidy.tailLast (by rw [first]; exact Option.some_ne_none _)
      refine ⟨last, by rw [if_neg (fun both => both.1 first), tail], ?_, final⟩
      exact shape.reaches_dropped (by rintro rfl; exact nonempty final) reached
    · rw [if_neg first] at nonempty
      obtain ⟨last, tail, reached, final⟩ := tidy.tailLast nonempty
      have distinct : last ≠ ref := by rintro rfl; exact kept ⟨tail, first⟩
      refine ⟨last, ?_, shape.reaches_dropped distinct reached, final⟩
      rw [if_neg (fun both => distinct (Option.some.inj (tail.symm.trans both.2))), tail]
  · intro a executor read subscribed
    rw [shape.dropped_executors] at read
    obtain ⟨before, readBefore, same⟩ := getElem?_modify_eq_some.mp read
    by_cases here : ref = a
    · rw [if_pos here] at same
      subst same
      exact .inl (Nat.succ_pos _)
    · rw [if_neg here] at same
      subst same
      rcases tidy.accounted a executor readBefore subscribed with stopped | reached
      · exact .inl stopped
      · exact .inr (shape.reaches_dropped (Ne.symm here) reached)

/-- A subscribed executor that nothing has stopped and the list does not lead to. -/
def Missed (pool : JobQueueExecutorPool ε π) : Prop :=
  ∃ (ref : ExecutorRef) (executor : Executor), pool.executors[ref]? = some executor ∧
    executor.subscribed = true ∧ executor.stopCalls = 0 ∧ ¬ pool.Reaches ref

/-- The list has lost its tail while a dead executor keeps it from ever becoming empty. -/
structure Broken (pool : JobQueueExecutorPool ε π) : Prop extends Shape pool where
  tailGone : pool.tail = none
  haunted : ∃ dead, pool.Reaches dead ∧ pool.isLive dead = false
  missed : pool.Missed

theorem Missed.of_sameList (missed : pool.Missed) (same : SameList pool next) : next.Missed := by
  obtain ⟨ref, before, readBefore, subscribed, never, unlinked⟩ := missed
  obtain ⟨inside, -⟩ := List.getElem?_eq_some_iff.mp readBefore
  rw [← same.length] at inside
  obtain ⟨_, readAgain, -, -, registered, calls, -⟩ :=
    same.executor ref _ (List.getElem?_eq_getElem inside)
  cases readBefore.symm.trans readAgain
  exact ⟨ref, _, List.getElem?_eq_getElem inside, registered.trans subscribed, calls.trans never,
    fun reached => unlinked ((same.reaches ref).mp reached)⟩

theorem Broken.of_sameList (broken : pool.Broken) (same : SameList pool next) : next.Broken where
  toShape := same.shape broken.toShape
  tailGone := same.tail.trans broken.tailGone
  haunted := by
    obtain ⟨dead, reached, notLive⟩ := broken.haunted
    exact ⟨dead, (same.reaches dead).mpr reached, same.isLive notLive⟩
  missed := broken.missed.of_sameList same

/-- On a list without a tail that cannot be empty, every new executor is subscribed and refused. -/
theorem Broken.of_refusal (shape : pool.Shape) (tailGone : pool.tail = none)
    (haunted : ∃ dead, pool.Reaches dead ∧ pool.isLive dead = false) :
    (JobQueueExecutorPool.add pool.executors.length pool.withNew).2.Broken := by
  obtain ⟨dead, reached, notLive⟩ := haunted
  have same : (JobQueueExecutorPool.add pool.executors.length pool.withNew).2 = pool.withNew := by
    rw [add_of_refusal reached.ne_none tailGone]
  have reaches : ∀ a, pool.withNew.Reaches a ↔ pool.Reaches a := by
    intro a
    rw [Reaches]
    rw [nextOf_withNew]
    exact Iff.rfl
  rw [same]
  refine ⟨shape.withNew, tailGone, ⟨dead, (reaches dead).mpr reached, ?_⟩, ?_⟩
  · rw [← notLive, isLive, isLive, withNew]
    dsimp only
    rw [List.getElem?_append_left (shape.reaches_inside reached)]
  · refine ⟨pool.executors.length, _, List.getElem?_concat_length .., rfl, rfl, ?_⟩
    rw [reaches]
    exact shape.not_reaches_new

/-- From the first removal of a tail on, dropping any executor leaves a list that refuses. -/
theorem Shape.refuses (shape : pool.Shape) (dead : pool.isLive ref = false)
    (lost : pool.TailRemoval ref ∧ pool.Reaches ref ∨
      pool.tail = none ∧ ∃ other, other ≠ ref ∧ pool.Reaches other ∧ pool.isLive other = false) :
    (pool.dropped ref).tail = none ∧
      ∃ other, (pool.dropped ref).Reaches other ∧ (pool.dropped ref).isLive other = false := by
  have still : ∀ other, pool.isLive other = false → (pool.dropped ref).isLive other = false := by
    intro other notLive
    rw [isLive, shape.dropped_executors, List.getElem?_modify]
    rw [isLive] at notLive
    cases read : pool.executors[other]? with
    | none => rfl
    | some executor =>
      rw [read] at notLive
      by_cases here : ref = other
      · simp [here]
      · simpa [here] using notLive
  rcases lost with ⟨⟨tail, head⟩, reached⟩ | ⟨tail, other, distinct, reached, notLive⟩
  · refine ⟨by rw [shape.dropped_tail, if_pos ⟨head, tail⟩], ref, ?_, still ref dead⟩
    unfold Reaches at reached ⊢
    rwa [shape.dropped_nextOf, shape.dropped_head, if_neg head]
  · refine ⟨?_, other, shape.reaches_dropped distinct reached, still other notLive⟩
    rw [shape.dropped_tail, tail]
    split <;> rfl

end RabbitJobQueue.Model.JobQueueExecutorPool
