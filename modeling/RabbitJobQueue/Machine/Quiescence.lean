import RabbitJobQueue.Machine.Run
import Mathlib.Algebra.GroupWithZero.Nat

/-! # Machines that run down

Some actions are the environment's, others the machine takes by itself. If every action of its own
brings a measure down in an order without endless descents, the machine cannot go on by itself for ever,
and it comes to a state where none of them is enabled. If the measure is a number, the machine takes at
most that many in a row, whatever their order.
-/

namespace RabbitJobQueue.Machine

variable {σ α : Type*}

/-- None of these actions is enabled. -/
def Quiescent (step : σ → α → Option σ) (own : α → Prop) (s : σ) : Prop := ∀ a, own a → step s a = none

/-- The machine's own actions keep the invariant and bring the measure down in some order. -/
structure Descends {ω : Type*} (step : σ → α → Option σ) (own : α → Prop) (invariant : σ → Prop)
    (lower : ω → ω → Prop) (measure : σ → ω) : Prop where
  kept : ∀ s a t, invariant s → own a → step s a = some t → invariant t
  falls : ∀ s a t, invariant s → own a → step s a = some t → lower (measure t) (measure s)

namespace Descends

variable {ω : Type*} {step : σ → α → Option σ} {own eager : α → Prop} {invariant : σ → Prop}
  {lower : ω → ω → Prop} {measure : σ → ω} {source target : σ} {actions : List α}

private theorem invariant_of_run (descends : Descends step own invariant lower measure)
    (initial : invariant source)
    (owned : ∀ a ∈ actions, own a) (ran : run step source actions = some target) : invariant target := by
  induction actions generalizing source with
  | nil =>
    cases ran
    exact initial
  | cons action rest ih =>
    obtain ⟨middle, stepped, continued⟩ := run_cons_eq_some.mp ran
    have kept := descends.kept source action middle initial (owned action List.mem_cons_self) stepped
    exact ih kept (fun a member => owned a (List.mem_cons_of_mem _ member)) continued

/-- The machine does not go on by itself for ever. -/
theorem not_endless (descends : Descends step own invariant lower measure) (ends : WellFounded lower)
    (states : ℕ → σ) (taken : ℕ → α) (initial : invariant (states 0)) :
    ¬ ∀ n, own (taken n) ∧ step (states n) (taken n) = some (states (n + 1)) := by
  intro endless
  -- by induction on the measure of the first state, for all endless runs at once
  induction bound : measure (states 0) using ends.induction generalizing states taken with
  | h bound ih =>
    obtain ⟨mine, stepped⟩ := endless 0
    have falls := descends.falls _ _ _ initial mine stepped
    have kept := descends.kept _ _ _ initial mine stepped
    exact ih _ (bound ▸ falls) (fun n => states (n + 1)) (fun n => taken (n + 1)) kept
      (fun n => endless (n + 1)) rfl

/-- Taking its own actions as long as some are enabled, the machine comes to a state where none is. -/
theorem exists_quiescent (descends : Descends step own invariant lower measure) (ends : WellFounded lower)
    (subset : ∀ a, eager a → own a) (initial : invariant source) :
    ∃ actions target, (∀ a ∈ actions, eager a) ∧ run step source actions = some target ∧
      Quiescent step eager target := by
  -- by induction on the measure, one action at a time
  induction bound : measure source using ends.induction generalizing source with
  | h bound ih =>
    by_cases quiescent : Quiescent step eager source
    · exact ⟨[], source, by simp, rfl, quiescent⟩
    · simp only [Quiescent, not_forall] at quiescent
      obtain ⟨action, mine, enabled⟩ := quiescent
      obtain ⟨middle, stepped⟩ := Option.ne_none_iff_exists'.mp enabled
      have kept := descends.kept source action middle initial (subset action mine) stepped
      have falls := descends.falls source action middle initial (subset action mine) stepped
      obtain ⟨actions, target, owned, ran, quiescent⟩ := ih (measure middle) (bound ▸ falls) kept rfl
      refine ⟨action :: actions, target, ?_, run_cons_eq_some.mpr ⟨middle, stepped, ran⟩, quiescent⟩
      exact List.forall_mem_cons.mpr ⟨mine, owned⟩

end Descends

/-- The machine's own actions keep the invariant and make the measure smaller. -/
structure RunsDown (step : σ → α → Option σ) (own : α → Prop) (invariant : σ → Prop)
    (measure : σ → ℕ) : Prop where
  kept : ∀ s a t, invariant s → own a → step s a = some t → invariant t
  falls : ∀ s a t, invariant s → own a → step s a = some t → measure t < measure s

namespace RunsDown

variable {step : σ → α → Option σ} {own eager : α → Prop} {invariant : σ → Prop} {measure : σ → ℕ}
  {source target : σ} {actions : List α}

/-- The measure bounds what the machine can still do by itself. -/
theorem length_le (runsDown : RunsDown step own invariant measure) (initial : invariant source)
    (owned : ∀ a ∈ actions, own a) (ran : run step source actions = some target) :
    actions.length + measure target ≤ measure source := by
  induction actions generalizing source with
  | nil =>
    cases ran
    simp
  | cons action rest ih =>
    obtain ⟨middle, stepped, continued⟩ := run_cons_eq_some.mp ran
    have mine := owned action List.mem_cons_self
    have kept := runsDown.kept source action middle initial mine stepped
    have falls := runsDown.falls source action middle initial mine stepped
    have later := ih kept (fun a member => owned a (List.mem_cons_of_mem _ member)) continued
    rw [List.length_cons]
    omega

private theorem descends (runsDown : RunsDown step own invariant measure) :
    Descends step own invariant (· < ·) measure := ⟨runsDown.kept, runsDown.falls⟩

theorem invariant_of_run (runsDown : RunsDown step own invariant measure) (initial : invariant source)
    (owned : ∀ a ∈ actions, own a) (ran : run step source actions = some target) : invariant target :=
  runsDown.descends.invariant_of_run initial owned ran

theorem exists_quiescent (runsDown : RunsDown step own invariant measure)
    (subset : ∀ a, eager a → own a) (initial : invariant source) :
    ∃ actions target, (∀ a ∈ actions, eager a) ∧ run step source actions = some target ∧
      Quiescent step eager target :=
  runsDown.descends.exists_quiescent Nat.lt_wfRel.wf subset initial

end RunsDown

variable {β : Type*} {heap : List β} {index : ℕ} {object : β}

/-- A measure of a heap, object by object. -/
def total (weight : β → ℕ) (heap : List β) : ℕ := (heap.map weight).sum

@[simp] theorem total_nil (weight : β → ℕ) : total weight [] = 0 := rfl

theorem total_alloc (weight : β → ℕ) : total weight (heap ++ [object]) = total weight heap + weight object := by
  simp [total]

theorem total_append (weight : β → ℕ) (first second : List β) :
    total weight (first ++ second) = total weight first + total weight second := by
  simp [total]

theorem total_eq_zero {weight : β → ℕ} (weightless : ∀ object ∈ heap, weight object = 0) :
    total weight heap = 0 := by
  induction heap with
  | nil => rfl
  | cons object rest ih =>
    obtain ⟨here, later⟩ := List.forall_mem_cons.mp weightless
    have whole : total weight (object :: rest) = weight object + total weight rest := rfl
    rw [whole, here, ih later]

/-- An assignment changes the sum by the assigned object alone. -/
theorem total_set (weight : β → ℕ) (after : β) (read : heap[index]? = some object) :
    total weight (heap.set index after) + weight object = total weight heap + weight after := by
  obtain ⟨inside, rfl⟩ := List.getElem?_eq_some_iff.mp read
  have split : heap = heap.take index ++ heap[index] :: heap.drop (index + 1) := by simp
  have whole := congrArg (total weight) split
  rw [List.set_eq_take_append_cons_drop, if_pos inside]
  simp only [total, List.map_append, List.map_cons, List.sum_append, List.sum_cons] at whole ⊢
  omega

end RabbitJobQueue.Machine
