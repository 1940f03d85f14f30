import Mathlib.Data.Int.Order.Basic
import Mathlib.Data.List.Induction
import RabbitJobQueue.Machine.SlidingWindow
import RabbitJobQueue.Model.FailurePolicy

/-! # The counter of a sliding window

`count` drops from the front of the queue what has left the window, and stops at the first entry inside it.
As long as the clock does not go back the queue is in the order of time, and what is dropped lies before
every window to come: so the length of the queue is the number of events in the window. The queue counts
its entries in 32 bits, though, and takes itself to be empty when they wrap.
-/

namespace RabbitJobQueue.Soundness.WindowCount

open Machine Model

/-- A call on the counter, with what the clock reads when it is made. -/
inductive CounterCall
  | inc (time : ℤ)
  | count (time : ℤ)
deriving DecidableEq, Repr

namespace CounterCall

def time : CounterCall → ℤ
  | .inc time | .count time => time

/-- The time of an event that is counted. -/
def event : CounterCall → Option ℤ
  | .inc time => some time
  | .count _ => none

/-- The counter after the call. -/
def perform (counter : ScrollingCounter) : CounterCall → ScrollingCounter
  | .inc time => (counter.inc (Stream'.const time)).1
  | .count time => (counter.count (Stream'.const time)).2.1

end CounterCall

/-- The times of the events counted. -/
def events (calls : List CounterCall) : List ℤ := calls.filterMap CounterCall.event

/-- A new counter after the calls; its window is in milliseconds. -/
def performAll (window : ℤ) (calls : List CounterCall) : ScrollingCounter :=
  calls.foldl CounterCall.perform { maxDelta := window }

/-- What `count` returns now, after the calls. -/
def answer (window : ℤ) (calls : List CounterCall) (now : ℤ) : UInt32 :=
  ((performAll window calls).count (Stream'.const now)).1

/-- The number of events in the window that ends now. -/
def inWindow (window : ℤ) (calls : List CounterCall) (now : ℤ) : ℕ :=
  ((events calls).filter fun time => decide (now - window ≤ time)).length

/-- After none of the calls are there more entries in the queue than it can count. -/
def Fits (window : ℤ) (calls : List CounterCall) : Prop :=
  ∀ before, before <+: calls → (performAll window before).entries.length < 2 ^ 32

variable {window now later : ℤ} {calls : List CounterCall} {counter : ScrollingCounter}

private theorem perform_append (earlier : List CounterCall) (call : CounterCall) :
    performAll window (earlier ++ [call]) = call.perform (performAll window earlier) := by
  rw [performAll, List.foldl_append]
  rfl

private theorem Fits.earlier {last : List CounterCall} (fits : Fits window (calls ++ last)) :
    Fits window calls :=
  fun before start => fits before (start.trans (List.prefix_append ..))

/-- The queue holds no more than has been counted. -/
theorem length_entries_le (window : ℤ) (calls : List CounterCall) :
    (performAll window calls).entries.length ≤ (events calls).length := by
  induction calls using List.reverseRecOn with
  | nil => exact Nat.le_refl _
  | append_singleton earlier call ih =>
    rw [perform_append, events, List.filterMap_append, List.length_append]
    cases call with
    | inc time =>
      change ((performAll window earlier).entries ++ [time]).length ≤ _
      rw [List.length_append]
      exact Nat.add_le_add_right ih 1
    | count time => exact Nat.le_trans length_prune_le (Nat.le_add_right_of_le ih)

/-- Fewer than 2^32 events always fit. -/
theorem fits_of_few (few : (events calls).length < 2 ^ 32) : Fits window calls := by
  intro before start
  have fewer : (events before).length ≤ (events calls).length := (start.sublist.filterMap _).length_le
  have held := length_entries_le window before
  omega

/-- The counter has lost nothing that a window ending at the bound or later contains. -/
structure Tracks (window bound : ℤ) (calls : List CounterCall) (counter : ScrollingCounter) : Prop where
  maxDelta : counter.maxDelta = window
  retains : Retains (bound - window) (events calls) counter.entries
  past : ∀ entry ∈ counter.entries, entry ≤ bound

private theorem Tracks.mono (tracks : Tracks window now calls counter) (after : now ≤ later) :
    Tracks window later calls counter where
  maxDelta := tracks.maxDelta
  retains := tracks.retains.mono (by omega)
  past entry member := (tracks.past entry member).trans after

private theorem Tracks.perform (call : CounterCall) (tracks : Tracks window call.time calls counter)
    (few : counter.entries.length < 2 ^ 32) :
    Tracks window call.time (calls ++ [call]) (call.perform counter) := by
  cases call with
  | inc time =>
    refine ⟨tracks.maxDelta, ?_, ?_⟩
    · rw [events, List.filterMap_append]
      exact tracks.retains.push tracks.past
    · intro entry member
      rcases List.mem_append.mp member with old | new
      · exact tracks.past entry old
      · exact (List.mem_singleton.mp new).le
  | count time =>
    have pruned := ScrollingCounter.prune_of_few few (time - counter.maxDelta)
    have left : ((CounterCall.count time).perform counter).entries =
        counter.entries.dropWhile fun first => decide (first < time - counter.maxDelta) := pruned
    refine ⟨tracks.maxDelta, ?_, fun entry member => ?_⟩
    · have same : events (calls ++ [.count time]) = events calls := by
        rw [events, List.filterMap_append]
        exact List.append_nil _
      rw [same, left, tracks.maxDelta]
      exact tracks.retains.prune (le_refl _)
    · rw [left] at member
      exact tracks.past entry (List.dropWhile_subset _ member)

/-- By induction on the calls, from the last one: the queue is that of a counter which drops nothing, as far
as any later window goes. -/
theorem tracks_performAll (window : ℤ)
    (chronological : (calls.map (·.time) ++ [now]).Pairwise (· ≤ ·)) (fits : Fits window calls) :
    Tracks window now calls (performAll window calls) := by
  induction calls using List.reverseRecOn generalizing now with
  | nil => exact ⟨rfl, .refl .nil, fun entry member => absurd member List.not_mem_nil⟩
  | append_singleton earlier call ih =>
    rw [List.map_append, List.append_assoc] at chronological
    have before : (earlier.map (·.time) ++ [call.time]).Pairwise (· ≤ ·) := by
      refine chronological.sublist ?_
      exact List.Sublist.append (.refl _) (List.sublist_append_left ..)
    have after : call.time ≤ now := by
      have last := (List.pairwise_append.mp chronological).2.1
      exact List.rel_of_pairwise_cons last List.mem_cons_self
    have performed := (ih before fits.earlier).perform call (fits earlier (List.prefix_append ..))
    rw [perform_append]
    exact performed.mono after

private theorem answer_eq (window : ℤ) (chronological : (calls.map (·.time) ++ [now]).Pairwise (· ≤ ·))
    (fits : Fits window calls) : (answer window calls now).toNat = inWindow window calls now := by
  have tracks := tracks_performAll window chronological fits
  have few := fits calls List.prefix_rfl
  have pruned : prune ScrollingCounter.isNotEmpty (now - window) (performAll window calls).entries =
      (events calls).filter fun time => decide (now - window ≤ time) :=
    (ScrollingCounter.prune_of_few few _).trans (tracks.retains.prune_eq (le_refl _))
  have counted : answer window calls now = UInt32.ofNat (inWindow window calls now) := by
    change UInt32.ofNat (prune _ (now - (performAll window calls).maxDelta) _).length = _
    rw [tracks.maxDelta, pruned, inWindow]
  have bounded : inWindow window calls now < 2 ^ 32 := by
    rw [inWindow, ← pruned]
    exact Nat.lt_of_le_of_lt length_prune_le few
  rw [counted, UInt32.toNat_ofNat', Nat.mod_eq_of_lt bounded]

private theorem maxDelta_performAll (window : ℤ) (calls : List CounterCall) :
    (performAll window calls).maxDelta = window := by
  induction calls using List.reverseRecOn with
  | nil => rfl
  | append_singleton earlier call ih =>
    rw [perform_append]
    cases call <;> exact ih

/-- What the loop discards lies before every window that ends now or later. -/
theorem discarded_past (counter : ScrollingCounter) (time : ℤ) : ∃ discarded,
    counter.entries = discarded ++ ((CounterCall.count time).perform counter).entries ∧
      ∀ entry ∈ discarded, ∀ later, time ≤ later → entry < later - counter.maxDelta := by
  obtain ⟨discarded, whole, past⟩ :=
    exists_pruned ScrollingCounter.isNotEmpty (time - counter.maxDelta) counter.entries
  refine ⟨discarded, whole, ?_⟩
  intro entry member later after
  have below := past entry member
  omega

/-- As long as the clock does not go back and the queue never has 2^32 entries, a count returns the number
of events in its window, and leaving out earlier counts changes no answer. What a count discards always
lies outside every window to come. -/
theorem count_eq_window (window : ℤ) (calls : List CounterCall) (now : ℤ)
    (chronological : (calls.map (·.time) ++ [now]).Pairwise (· ≤ ·)) :
    (Fits window calls → (answer window calls now).toNat = inWindow window calls now ∧
      ∀ sparse, sparse.Sublist calls → events sparse = events calls → Fits window sparse →
        answer window sparse now = answer window calls now) ∧
      ∀ before time after, calls = before ++ .count time :: after → ∃ discarded,
        (performAll window before).entries =
          discarded ++ (performAll window (before ++ [.count time])).entries ∧
        ∀ entry ∈ discarded, ∀ later, time ≤ later → entry < later - window := by
  constructor
  · intro fits
    have whole := answer_eq window chronological fits
    refine ⟨whole, ?_⟩
    intro sparse sublist same sparseFits
    have ordered := chronological.sublist ((sublist.map CounterCall.time).append_right [now])
    apply UInt32.toNat_inj.mp
    rw [whole, answer_eq window ordered sparseFits, inWindow, inWindow, same]
  · rintro before time after -
    obtain ⟨discarded, shorter, past⟩ := discarded_past (performAll window before) time
    rw [maxDelta_performAll] at past
    refine ⟨discarded, ?_, past⟩
    rw [shorter, perform_append]

/-- Two events and a count on the way, of a window of two milliseconds. -/
theorem count_eq_window_two :
    (answer 2 [.inc 0, .count 1, .inc 2] 3).toNat = inWindow 2 [.inc 0, .count 1, .inc 2] 3 ∧
      answer 2 [.inc 0, .inc 2] 3 = answer 2 [.inc 0, .count 1, .inc 2] 3 := by
  have counted := (count_eq_window 2 [.inc 0, .count 1, .inc 2] 3 (by decide)).1 (fits_of_few (by decide))
  exact ⟨counted.1, counted.2 [.inc 0, .inc 2] (by decide) rfl (fits_of_few (by decide))⟩

theorem foldl_perform_incs (counter : ScrollingCounter) (count : ℕ) :
    (List.replicate count (.inc 0)).foldl CounterCall.perform counter =
      { counter with entries := counter.entries ++ List.replicate count 0 } := by
  induction count generalizing counter with
  | zero => rw [List.replicate_zero, List.replicate_zero, List.append_nil, List.foldl_nil]
  | succ count ih =>
    rw [List.replicate_succ, List.foldl_cons]
    apply (ih _).trans
    simp only [CounterCall.perform, ScrollingCounter.inc, List.append_assoc, List.singleton_append]
    rfl

theorem prune_incs (count : ℕ) {cutoff : ℤ} (inside : cutoff ≤ 0) :
    prune ScrollingCounter.isNotEmpty cutoff (List.replicate count 0) = List.replicate count 0 := by
  cases count with
  | zero => rfl
  | succ rest => exact if_neg fun both => absurd both.2 (not_lt.mpr inside)

/-- Whatever it holds, a queue that takes itself to be empty is left as it is. -/
theorem prune_of_full {entries : List ℤ} (full : ScrollingCounter.isNotEmpty entries.length = false)
    (cutoff : ℤ) : prune ScrollingCounter.isNotEmpty cutoff entries = entries := by
  cases entries with
  | nil => rfl
  | cons first rest =>
    rw [List.length_cons] at full
    exact if_neg fun both => absurd both.1 (by simp [full])

/-- So many events at one time, and one more a millisecond later. -/
def crowd (count : ℕ) : List CounterCall := List.replicate count (.inc 0) ++ [.inc 1]

/-- The loop discards one entry, and then takes the queue to be empty. -/
theorem answer_crowd {count rest : ℕ} (some : count = rest + 1)
    (full : ScrollingCounter.isNotEmpty count = false)
    (more : ScrollingCounter.isNotEmpty (count + 1) = true) :
    answer 0 (crowd count) 1 = UInt32.ofNat count := by
  have queue : (performAll 0 (crowd count)).entries = 0 :: (List.replicate rest 0 ++ [1]) := by
    rw [crowd, perform_append, performAll, foldl_perform_incs, some]
    rfl
  have length : (List.replicate rest (0 : ℤ) ++ [1]).length = count := by simp [some]
  have left := prune_of_full (length.symm ▸ full) 1
  change UInt32.ofNat (prune _ (1 - (performAll 0 _).maxDelta) (performAll 0 _).entries).length = _
  rw [maxDelta_performAll, queue, Int.sub_zero, prune_cons, length, if_pos ⟨more, by decide⟩, left, length]

/-- When 2^32 events have left the window and one has not, it is counted as none. -/
theorem full_counter_answers_zero :
    ((crowd (2 ^ 32)).map CounterCall.time ++ [1]).Pairwise (· ≤ ·) ∧ inWindow 0 (crowd (2 ^ 32)) 1 = 1 ∧
      answer 0 (crowd (2 ^ 32)) 1 = 0 := by
  have ordered (count : ℕ) : ((crowd count).map CounterCall.time ++ [1]).Pairwise (· ≤ ·) := by
    rw [crowd, List.map_append, List.map_replicate, List.append_assoc]
    refine List.pairwise_append.mpr ⟨List.pairwise_replicate.mpr (.inr (le_refl _)), by decide, ?_⟩
    intro earlier member later last
    rw [List.eq_of_mem_replicate member]
    exact (by decide : ∀ later ∈ [(1 : ℤ), 1], 0 ≤ later) later last
  have inside (count : ℕ) : inWindow 0 (crowd count) 1 = 1 := by
    have event : (CounterCall.inc 0).event = some 0 := rfl
    rw [inWindow, events, crowd, List.filterMap_append, List.filterMap_replicate_of_some event,
      List.filter_append, List.filter_replicate_of_neg (by decide), List.nil_append]
    rfl
  refine ⟨ordered (2 ^ 32), inside (2 ^ 32), ?_⟩
  exact answer_crowd (Nat.succ_pred_eq_of_pos (by decide)).symm (by decide) (by decide)

end RabbitJobQueue.Soundness.WindowCount
