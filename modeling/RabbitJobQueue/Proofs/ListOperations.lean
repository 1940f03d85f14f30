import RabbitJobQueue.Proofs.ExecutorList

/-! # The list operations on any executor

`add` and `remove` may be called for any executor, whether the list leads to it or not. As `add` never
assigns `prev`, following `prev` never leads anywhere, and the links of the list change in one way only:
`add` links the tail to the new executor.
-/

namespace RabbitJobQueue.Model.JobQueueExecutorPool

open Machine

variable {ε π : Type} {pool next : JobQueueExecutorPool ε π} {ref other : ExecutorRef}

/-- The pool with this executor behind its tail. -/
def behind (pool : JobQueueExecutorPool ε π) (last ref : ExecutorRef) : JobQueueExecutorPool ε π :=
  { pool.setNext last (some ref) with tail := some ref }

/-- What `add` does: it starts a list, goes behind the tail, or throws. -/
theorem add_cases (ref : ExecutorRef) (pool : JobQueueExecutorPool ε π) :
    (pool.head = none ∧ add ref pool = (.ok (), { pool with head := some ref, tail := some ref })) ∨
    (pool.head ≠ none ∧ pool.tail = none ∧ add ref pool = (.error .nullPointer, pool)) ∨
    ∃ last, pool.head ≠ none ∧ pool.tail = some last ∧ add ref pool = (.ok (), pool.behind last ref) := by
  rw [add]
  cases start : pool.head with
  | none => exact .inl ⟨rfl, rfl⟩
  | some first =>
    cases end' : pool.tail with
    | none => exact .inr (.inl ⟨Option.some_ne_none first, rfl, rfl⟩)
    | some last => exact .inr (.inr ⟨last, Option.some_ne_none first, rfl, rfl⟩)

theorem nextOf_behind {last : ExecutorRef} (inside : last < pool.executors.length) :
    (pool.behind last ref).nextOf = fun a => if a = last then some ref else pool.nextOf a :=
  nextOf_setNext inside

theorem behind_length {last : ExecutorRef} :
    (pool.behind last ref).executors.length = pool.executors.length :=
  List.length_modify ..

/-- A link behind the tail is an old one or the new one. -/
theorem nextOf_behind_eq_some {last a b : ExecutorRef} (link : (pool.behind last ref).nextOf a = some b) :
    pool.nextOf a = some b ∨ (a = last ∧ b = ref) := by
  rcases Nat.lt_or_ge last pool.executors.length with inside | outside
  · rw [nextOf_behind inside] at link
    dsimp only at link
    split at link
    · next here => exact .inr ⟨here, (Option.some.inj link).symm⟩
    · exact .inl link
  · have same : (pool.behind last ref).executors = pool.executors := by
      apply modify_eq_of_fixed
      intro executor read
      rw [List.getElem?_eq_none outside] at read
      contradiction
    rw [nextOf, same] at link
    exact .inl link

private theorem behind_noPrev (shape : pool.Shape) {last : ExecutorRef} :
    ∀ (a : ExecutorRef) (executor : Executor), (pool.behind last ref).executors[a]? = some executor →
      executor.prev = none := by
  intro a executor read
  obtain ⟨before, readBefore, rfl⟩ := getElem?_modify_eq_some.mp read
  have unset := shape.noPrev a before readBefore
  split <;> exact unset

theorem Shape.add (shape : pool.Shape) (inside : ref < pool.executors.length) :
    (add ref pool).2.Shape := by
  rcases add_cases ref pool with ⟨-, added⟩ | ⟨-, -, added⟩ | ⟨last, -, -, added⟩
  · rw [added]
    refine ⟨shape.noPrev, shape.nextInside, ?_⟩
    rintro a ⟨⟩
    exact inside
  · rw [added]
    exact shape
  · rw [added]
    refine ⟨behind_noPrev shape, ?_, ?_⟩
    · intro a b link
      rw [behind_length]
      rcases nextOf_behind_eq_some link with old | ⟨-, rfl⟩
      · exact shape.nextInside a b old
      · exact inside
    · intro a start
      rw [behind_length]
      exact shape.headInside a start

theorem Shape.remove (shape : pool.Shape) (ref : ExecutorRef) : (pool.remove ref).Shape := by
  rw [shape.remove_eq]
  refine ⟨shape.noPrev, shape.nextInside, ?_⟩
  intro a start
  dsimp only at start
  split at start
  · exact shape.nextInside ref a start
  · exact shape.headInside a start

end RabbitJobQueue.Model.JobQueueExecutorPool
