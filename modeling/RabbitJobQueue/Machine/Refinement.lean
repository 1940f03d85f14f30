import RabbitJobQueue.Machine.Run

/-! # Refinement

One machine refines another under a view of its states if each of its steps is, seen through the view, one
step of the other or none at all. Then its runs are, seen through the view, runs of the other, and
whatever the other machine keeps invariant holds of every view. The refinement may itself rest on an
invariant. Where a machine is made of components, the actions of a component can be read off the tape.
-/

namespace RabbitJobQueue.Machine

variable {σ τ α ω : Type*}

/-- Every step of `step` is a step of `abstract` or none, under `view`. -/
structure Refines (step : σ → α → Option σ) (abstract : τ → ω → Option τ) (view : σ → τ)
    (invariant : σ → Prop) : Prop where
  kept : ∀ s a t, invariant s → step s a = some t → invariant t
  simulated : ∀ s a t, invariant s → step s a = some t →
    view t = view s ∨ ∃ b, abstract (view s) b = some (view t)

namespace Refines

variable {step : σ → α → Option σ} {abstract : τ → ω → Option τ} {view : σ → τ} {invariant : σ → Prop}
  {source target : σ}

/-- Runs are simulated by runs. -/
theorem reachable (refines : Refines step abstract view invariant) (initial : invariant source)
    (reached : Reachable step source target) : Reachable abstract (view source) (view target) := by
  obtain ⟨actions, ran⟩ := reached
  have both : invariant target ∧ Reachable abstract (view source) (view target) := by
    refine run_invariant (motive := fun s => invariant s ∧ Reachable abstract (view source) (view s)) ?_
      ⟨initial, .refl _⟩ ran
    rintro s a t ⟨holds, before⟩ stepped
    refine ⟨refines.kept s a t holds stepped, ?_⟩
    rcases refines.simulated s a t holds stepped with same | ⟨b, moved⟩
    · rw [same]
      exact before
    · exact before.next moved
  exact both.2

end Refines

section Components

variable {step : σ → α → Option σ} {part : τ → ω → Option τ} {source target : σ} {actions : List α}

/-- If every action of a machine is at most one action of a component, a tape of the machine is a tape of
the component. -/
theorem run_filterMap (view : σ → τ) (project : α → Option ω)
    (each : ∀ s a t, step s a = some t → run part (view s) (project a).toList = some (view t))
    (ran : run step source actions = some target) :
    run part (view source) (actions.filterMap project) = some (view target) := by
  induction actions generalizing source with
  | nil => cases ran; rfl
  | cons action rest ih =>
    obtain ⟨middle, stepped, ran⟩ := run_cons_eq_some.mp ran
    have split : (action :: rest).filterMap project = (project action).toList ++ rest.filterMap project := by
      cases here : project action <;> simp [here]
    rw [split, run_append_eq_some]
    exact ⟨view middle, each source action middle stepped, ih ran⟩

end Components

end RabbitJobQueue.Machine
