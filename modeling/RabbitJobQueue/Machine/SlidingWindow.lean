import Mathlib.Order.Lattice
import Mathlib.Data.List.Basic
import Mathlib.Data.List.TakeWhile
import Mathlib.Order.Basic

/-! # Sliding windows over ordered events

A counter of recent events keeps the times of the events in a queue, drops from the front what has
left the window, and answers with what is left. Its answers are those of a counter that drops
nothing, as long as the cutoffs it is asked for never decrease: the queue loses no event at or
after the last cutoff. Times are taken from any linear order. How the queue finds out that it is
empty is a parameter, since a queue may count its entries in a number that wraps.
-/

namespace RabbitJobQueue.Machine

variable {α : Type*} [LinearOrder α]

/-- In an ordered list everything below a cutoff stands in front. -/
theorem dropWhile_lt_eq_filter {times : List α} (ordered : times.Pairwise (· ≤ ·)) (cutoff : α) :
    times.dropWhile (fun time => decide (time < cutoff)) = times.filter (fun time => decide (cutoff ≤ time)) := by
  induction times with
  | nil => rfl
  | cons first rest ih =>
    obtain ⟨least, later⟩ := List.pairwise_cons.mp ordered
    by_cases below : first < cutoff
    · rw [List.dropWhile_cons_of_pos (by simpa using below), ih later,
        List.filter_cons_of_neg (by simpa using below)]
    · have inside : cutoff ≤ first := not_lt.mp below
      rw [List.dropWhile_cons_of_neg (by simpa using inside)]
      symm
      rw [List.filter_eq_self]
      intro time member
      rcases List.mem_cons.mp member with rfl | member
      · exact decide_eq_true inside
      · exact decide_eq_true (inside.trans (least time member))

/-- Drops from the front what lies before the cutoff, as long as the queue takes itself to have entries. -/
def prune (isNotEmpty : ℕ → Bool) (cutoff : α) : List α → List α
  | [] => []
  | first :: rest =>
    if isNotEmpty (rest.length + 1) ∧ first < cutoff then prune isNotEmpty cutoff rest else first :: rest

section Prune

variable {isNotEmpty : ℕ → Bool} {cutoff later : α} {times : List α}

theorem prune_cons (first : α) (rest : List α) : prune isNotEmpty cutoff (first :: rest) =
    if isNotEmpty (rest.length + 1) ∧ first < cutoff then prune isNotEmpty cutoff rest
    else first :: rest := rfl

/-- What is dropped stands in front and lies before the cutoff. -/
theorem exists_pruned (isNotEmpty : ℕ → Bool) (cutoff : α) (times : List α) : ∃ discarded,
    times = discarded ++ prune isNotEmpty cutoff times ∧ ∀ time ∈ discarded, time < cutoff := by
  induction times with
  | nil => exact ⟨[], rfl, by simp⟩
  | cons first rest ih =>
    rw [prune_cons]
    split
    · next dropped =>
      obtain ⟨discarded, whole, past⟩ := ih
      refine ⟨first :: discarded, congrArg (first :: ·) whole, ?_⟩
      intro time member
      rcases List.mem_cons.mp member with rfl | member
      · exact dropped.2
      · exact past time member
    · exact ⟨[], rfl, by simp⟩

theorem length_prune_le : (prune isNotEmpty cutoff times).length ≤ times.length := by
  obtain ⟨discarded, whole, -⟩ := exists_pruned isNotEmpty cutoff times
  have lengths := congrArg List.length whole
  rw [List.length_append] at lengths
  omega

/-- Dropping less before changes nothing, wherever the queue takes itself to be empty on the way. -/
theorem prune_prune (after : cutoff ≤ later) :
    prune isNotEmpty later (prune isNotEmpty cutoff times) = prune isNotEmpty later times := by
  induction times with
  | nil => rfl
  | cons first rest ih =>
    have dropping := @prune_cons _ _ isNotEmpty cutoff first rest
    rw [dropping]
    split
    · next dropped =>
      have again : isNotEmpty (rest.length + 1) = true ∧ first < later :=
        ⟨dropped.1, dropped.2.trans_le after⟩
      rw [ih, prune_cons, if_pos again]
    · rfl

/-- A queue that knows whether it is empty drops everything in front that lies before the cutoff. -/
theorem prune_eq_dropWhile (counts : ∀ length, 0 < length → length ≤ times.length → isNotEmpty length = true) :
    prune isNotEmpty cutoff times = times.dropWhile fun time => decide (time < cutoff) := by
  induction times with
  | nil => rfl
  | cons first rest ih =>
    have some := counts (rest.length + 1) (Nat.succ_pos _) (Nat.le_refl _)
    rw [prune_cons]
    by_cases below : first < cutoff
    · rw [if_pos ⟨some, below⟩, List.dropWhile_cons_of_pos (by simpa using below)]
      exact ih fun length positive atMost => counts length positive (Nat.le_succ_of_le atMost)
    · rw [if_neg (fun both => below both.2), List.dropWhile_cons_of_neg (by simpa using below)]

end Prune

/-- The queue `kept` is ordered and has lost nothing of `history` at or after `bound`. -/
structure Retains (bound : α) (history kept : List α) : Prop where
  ordered : kept.Pairwise (· ≤ ·)
  same : ∀ cutoff, bound ≤ cutoff →
    kept.filter (fun time => decide (cutoff ≤ time)) = history.filter (fun time => decide (cutoff ≤ time))

namespace Retains

variable {bound cutoff time : α} {history kept : List α}

theorem refl (ordered : history.Pairwise (· ≤ ·)) : Retains bound history history :=
  ⟨ordered, fun _ _ => rfl⟩

theorem mono (retains : Retains bound history kept) (later : bound ≤ cutoff) :
    Retains cutoff history kept :=
  ⟨retains.ordered, fun other after => retains.same other (later.trans after)⟩

/-- Dropping what has left the window leaves exactly what the whole history has inside it. -/
theorem prune_eq (retains : Retains bound history kept) (later : bound ≤ cutoff) :
    kept.dropWhile (fun time => decide (time < cutoff)) =
      history.filter (fun time => decide (cutoff ≤ time)) :=
  (dropWhile_lt_eq_filter retains.ordered cutoff).trans (retains.same cutoff later)

/-- No later answer depends on what has been dropped. -/
theorem prune (retains : Retains bound history kept) (later : bound ≤ cutoff) :
    Retains cutoff history (kept.dropWhile fun time => decide (time < cutoff)) where
  ordered := retains.ordered.sublist (List.dropWhile_sublist _)
  same other after := by
    rw [retains.prune_eq later, List.filter_filter]
    apply List.filter_congr
    intro time _
    by_cases inside : other ≤ time
    · simp [inside, after.trans inside]
    · simp [inside]

/-- A new event goes to the end of both. -/
theorem push (retains : Retains bound history kept) (latest : ∀ earlier ∈ kept, earlier ≤ time) :
    Retains bound (history ++ [time]) (kept ++ [time]) where
  ordered := by
    rw [List.pairwise_append]
    refine ⟨retains.ordered, List.pairwise_singleton _ _, ?_⟩
    intro earlier member last same
    rw [List.mem_singleton.mp same]
    exact latest earlier member
  same cutoff later := by
    rw [List.filter_append, List.filter_append, retains.same cutoff later]

end Retains

end RabbitJobQueue.Machine
