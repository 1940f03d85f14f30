import Mathlib.Data.List.Basic
import Mathlib.Data.List.Count
import Mathlib.Data.List.Induction
import Mathlib.Data.List.Nodup
import Mathlib.Data.List.TakeDrop

/-! # Lists as heaps of mutable records

A program that allocates objects and updates them in place is modelled by the list of all objects
ever allocated: a reference is an index, allocation appends, an assignment modifies one entry. A
read after either operation is characterized exactly, and a count over the heap changes only by
the entry that was touched.
-/

namespace RabbitJobQueue.Machine

variable {α β : Type*} {heap : List α} {index other : ℕ} {object found : α}

/-- A read after an allocation finds an old object at its old reference, or the new one. -/
theorem getElem?_alloc_eq_some : (heap ++ [object])[index]? = some found ↔
    heap[index]? = some found ∨ (index = heap.length ∧ found = object) := by
  rcases Nat.lt_trichotomy index heap.length with old | fresh | outside
  · rw [List.getElem?_append_left old]
    constructor
    · exact .inl
    · rintro (read | ⟨same, -⟩)
      · exact read
      · omega
  · subst fresh
    simp [eq_comm]
  · rw [List.getElem?_eq_none (by rw [List.length_append, List.length_singleton]; omega),
      List.getElem?_eq_none (by omega)]
    simp only [reduceCtorEq, false_or, false_iff, not_and]
    omega

/-- An allocation never changes what an old reference reads. -/
theorem getElem?_alloc_of_some (read : heap[index]? = some found) :
    (heap ++ [object])[index]? = some found :=
  getElem?_alloc_eq_some.mpr (.inl read)

/-- A read after an assignment: the assigned object has changed, every other is as it was. -/
theorem getElem?_modify_eq_some {update : α → α} : (heap.modify index update)[other]? = some found ↔
    ∃ before, heap[other]? = some before ∧ found = if index = other then update before else before := by
  rw [List.getElem?_modify]
  cases read : heap[other]? with
  | none => simp
  | some before =>
    simp only [Option.map_eq_map, Option.map_some, Option.some.injEq, exists_eq_left']
    exact eq_comm

theorem getElem?_modify_self {update : α → α} (read : heap[index]? = some object) :
    (heap.modify index update)[index]? = some (update object) := by
  simp [read]

theorem getElem?_modify_other {update : α → α} (distinct : index ≠ other) :
    (heap.modify index update)[other]? = heap[other]? :=
  List.getElem?_modify_ne update heap distinct

/-- Writing back what is already stored is no assignment at all. -/
theorem modify_eq_of_fixed {update : α → α}
    (fixed : ∀ object, heap[index]? = some object → update object = object) :
    heap.modify index update = heap := by
  apply List.ext_getElem?
  intro position
  rw [List.getElem?_modify]
  cases read : heap[position]? with
  | none => rfl
  | some object =>
    by_cases here : index = position
    · subst here
      simp [fixed object read]
    · simp [here]

theorem modify_eq_set {update : α → α} (read : heap[index]? = some object) :
    heap.modify index update = heap.set index (update object) := by
  apply List.ext_getElem?
  intro position
  rw [List.getElem?_modify, List.getElem?_set]
  by_cases here : index = position
  · subst here
    obtain ⟨inside, -⟩ := List.getElem?_eq_some_iff.mp read
    rw [read, if_pos rfl, if_pos inside]
    exact congrArg some (if_pos rfl)
  · simp [here]

/-- A count over the heap changes by the assigned object alone. -/
theorem countP_modify (test : α → Bool) (update : α → α) (read : heap[index]? = some object) :
    (heap.modify index update).countP test + (if test object then 1 else 0) =
      heap.countP test + if test (update object) then 1 else 0 := by
  obtain ⟨inside, rfl⟩ := List.getElem?_eq_some_iff.mp read
  have split : heap = heap.take index ++ heap[index] :: heap.drop (index + 1) := by simp
  have changed : heap.modify index update =
      heap.take index ++ update heap[index] :: heap.drop (index + 1) :=
    List.modify_eq_take_cons_drop inside
  have count := congrArg (List.countP test) split
  rw [changed]
  simp only [List.countP_append, List.countP_cons] at count ⊢
  omega

theorem countP_modify_of_same {test : α → Bool} {update : α → α}
    (same : ∀ object, heap[index]? = some object → test (update object) = test object) :
    (heap.modify index update).countP test = heap.countP test := by
  cases read : heap[index]? with
  | none => rw [modify_eq_of_fixed (by simp [read])]
  | some object =>
    have count := countP_modify test update read
    rw [same object read] at count
    omega

/-- An assignment is invisible to any view of the objects that it does not change. -/
theorem map_modify_of_same {view : α → β} {update : α → α}
    (same : ∀ object, view (update object) = view object) :
    (heap.modify index update).map view = heap.map view := by
  apply List.ext_getElem?
  intro position
  simp only [List.getElem?_map, List.getElem?_modify]
  cases heap[position]? with
  | none => rfl
  | some object =>
    by_cases here : index = position <;> simp [here, same]

/-- An assignment seen through a view is an assignment to what is seen. -/
theorem map_modify {view : α → β} {update : α → α} {seen : β → β}
    (commutes : ∀ object, view (update object) = seen (view object)) :
    (heap.modify index update).map view = (heap.map view).modify index seen := by
  apply List.ext_getElem?
  intro position
  simp only [List.getElem?_map, List.getElem?_modify]
  cases heap[position]? with
  | none => rfl
  | some object =>
    by_cases here : index = position <;> simp [here, commutes]

/-- The object just allocated can be assigned to before anyone else sees it. -/
theorem modify_alloc {update : α → α} :
    (heap ++ [object]).modify heap.length update = heap ++ [update object] := by
  rw [List.modify_eq_take_cons_drop (by simp)]
  simp

theorem countP_alloc {test : α → Bool} :
    (heap ++ [object]).countP test = heap.countP test + if test object then 1 else 0 := by
  simp [List.countP_append, List.countP_cons]

/-- Some of the objects, read one reference after the other. -/
theorem filter_map_eq_filterMap_range (test : α → Bool) (view : α → β) (heap : List α) :
    (heap.filter test).map view =
      ((List.range heap.length).filter fun index => (heap[index]?).any test).filterMap
        fun index => (heap[index]?).map view := by
  induction heap using List.reverseRecOn with
  | nil => rfl
  | append_singleton heap object ih =>
    have old : ∀ index ∈ List.range heap.length, (heap ++ [object])[index]? = heap[index]? := by
      intro index member
      exact List.getElem?_append_left (List.mem_range.mp member)
    have same : (List.range heap.length).filter (fun index => ((heap ++ [object])[index]?).any test) =
        (List.range heap.length).filter fun index => (heap[index]?).any test :=
      List.filter_congr fun index member => by rw [old index member]
    rw [List.length_append, List.length_singleton, List.range_succ, List.filter_append, List.filter_append,
      List.map_append, List.filterMap_append, same, ih]
    congr 1
    · apply List.filterMap_congr
      intro index member
      rw [old index (List.mem_of_mem_filter member)]
    · cases selected : test object <;> simp [selected]

variable {test : α → Bool} {others : List β} {seen : β → Bool}

/-- The references of the objects that pass a test. -/
def passing (test : α → Bool) (heap : List α) : List ℕ :=
  (List.range heap.length).filter fun index => (heap[index]?).any test

theorem mem_passing : index ∈ passing test heap ↔ ∃ object, heap[index]? = some object ∧ test object = true := by
  rw [passing, List.mem_filter, List.mem_range, Option.any_eq_true]
  constructor
  · exact And.right
  · rintro ⟨object, read, passes⟩
    obtain ⟨inside, -⟩ := List.getElem?_eq_some_iff.mp read
    exact ⟨inside, object, read, passes⟩

private theorem passing_alloc :
    passing test (heap ++ [object]) = passing test heap ++ if test object then [heap.length] else [] := by
  have same : (List.range heap.length).filter (fun index => ((heap ++ [object])[index]?).any test) =
      passing test heap := by
    apply List.filter_congr
    intro index member
    rw [List.getElem?_append_left (List.mem_range.mp member)]
  rw [passing, List.length_append, List.length_singleton, List.range_succ, List.filter_append, same]
  cases selected : test object <;> simp [selected]

private theorem length_passing : (passing test heap).length = heap.countP test := by
  induction heap using List.reverseRecOn with
  | nil => rfl
  | append_singleton heap object ih =>
    rw [passing_alloc, countP_alloc, List.length_append, ih]
    split <;> rfl

/-- Objects that are charged to different objects of another heap are no more than those. -/
theorem countP_le_of_charge (charge : ℕ → ℕ)
    (charged : ∀ index ∈ passing test heap, charge index ∈ passing seen others)
    (apart : ∀ first ∈ passing test heap, ∀ second ∈ passing test heap, charge first = charge second →
      first = second) : heap.countP test ≤ others.countP seen := by
  have distinct : ((passing test heap).map charge).Nodup :=
    List.Nodup.map_on apart (List.nodup_range.filter _)
  have inside : (passing test heap).map charge ⊆ passing seen others := by
    intro slot member
    obtain ⟨index, passes, rfl⟩ := List.mem_map.mp member
    exact charged index passes
  have fewer := (List.subperm_of_subset distinct inside).length_le
  rwa [List.length_map, length_passing, length_passing] at fewer

end RabbitJobQueue.Machine
