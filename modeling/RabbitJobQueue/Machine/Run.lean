import Mathlib.Data.List.Basic
import Mathlib.Tactic.Use

/-! # Finite runs of a partial step function

A machine here is nothing but `step : σ → α → Option σ`: an action is either taken, with one next
state, or refused. Nondeterminism is the choice of the action tape. Runs compose and split at any
action, an invariant of one step is an invariant of every run, and a property that changes over a
run changes at one of its steps. Nothing in this module knows what the states are.
-/

namespace RabbitJobQueue.Machine

variable {σ α : Type*} (step : σ → α → Option σ)

/-- The state an action tape leads to; `none` as soon as one action is refused. -/
def run : σ → List α → Option σ
  | source, [] => some source
  | source, action :: rest => (step source action).bind fun middle => run middle rest

/-- Some action tape leads from `source` to `target`. -/
def Reachable (source target : σ) : Prop := ∃ actions, run step source actions = some target

/-- Every step the tape takes from `source` meets `good`, a condition on the state before it. -/
def Along (good : σ → α → Prop) (source : σ) (actions : List α) : Prop :=
  ∀ before action after middle, actions = before ++ action :: after →
    run step source before = some middle → good middle action

variable {step} {source middle target : σ} {action : α} {actions first second : List α}

@[simp] theorem run_nil : run step source [] = some source := rfl

theorem run_cons : run step source (action :: actions) =
    (step source action).bind fun middle => run step middle actions := rfl

theorem run_cons_eq_some : run step source (action :: actions) = some target ↔
    ∃ middle, step source action = some middle ∧ run step middle actions = some target := by
  simp only [run_cons, Option.bind_eq_some_iff]

/-- Running two tapes in a row is running their concatenation. -/
theorem run_append : run step source (first ++ second) =
    (run step source first).bind fun middle => run step middle second := by
  induction first generalizing source with
  | nil => rfl
  | cons action rest ih => simp only [List.cons_append, run_cons, ih, Option.bind_assoc]

theorem run_append_eq_some : run step source (first ++ second) = some target ↔
    ∃ middle, run step source first = some middle ∧ run step middle second = some target := by
  simp only [run_append, Option.bind_eq_some_iff]

theorem run_singleton : run step source [action] = step source action := by
  simp only [run_cons, run_nil, Option.bind_fun_some]

theorem run_snoc (first : run step source actions = some middle)
    (last : step middle action = some target) :
    run step source (actions ++ [action]) = some target := by
  rw [run_append, first, Option.bind_some, run_singleton, last]

theorem Reachable.refl (source : σ) : Reachable step source source := ⟨[], rfl⟩

theorem Reachable.trans (left : Reachable step source middle)
    (right : Reachable step middle target) : Reachable step source target := by
  obtain ⟨first, ran⟩ := left
  obtain ⟨second, continued⟩ := right
  exact ⟨first ++ second, run_append_eq_some.mpr ⟨middle, ran, continued⟩⟩

theorem Reachable.next (reached : Reachable step source middle)
    (next : step middle action = some target) : Reachable step source target :=
  reached.trans ⟨[action], run_singleton.trans next⟩

/-- The invariant rule: what every step preserves, every run preserves. -/
theorem run_invariant {motive : σ → Prop}
    (preserved : ∀ s a t, motive s → step s a = some t → motive t)
    (initial : motive source) (ran : run step source actions = some target) : motive target := by
  induction actions generalizing source with
  | nil => cases ran; exact initial
  | cons action rest ih =>
    obtain ⟨middle, next, tail⟩ := run_cons_eq_some.mp ran
    exact ih (preserved source action middle initial next) tail

theorem Reachable.invariant {motive : σ → Prop}
    (preserved : ∀ s a t, motive s → step s a = some t → motive t)
    (initial : motive source) (reached : Reachable step source target) : motive target := by
  obtain ⟨actions, ran⟩ := reached
  exact run_invariant preserved initial ran

/-- What holds at the end of a run and not at its start begins to hold at one of its steps. -/
theorem exists_step_of_change {motive : σ → Prop} (ran : run step source actions = some target)
    (absent : ¬ motive source) (present : motive target) :
    ∃ before action after s t, actions = before ++ action :: after ∧
      run step source before = some s ∧ step s action = some t ∧
      run step t after = some target ∧ ¬ motive s ∧ motive t := by
  induction actions generalizing source with
  | nil => cases ran; exact absurd present absent
  | cons action rest ih =>
    obtain ⟨middle, next, tail⟩ := run_cons_eq_some.mp ran
    by_cases now : motive middle
    · exact ⟨[], action, rest, source, middle, rfl, rfl, next, tail, absent, now⟩
    · obtain ⟨before, change, after, s, t, same, ran, stepped, continued, without, within⟩ :=
        ih tail now
      refine ⟨action :: before, change, after, s, t, by rw [same, List.cons_append], ?_, stepped,
        continued, without, within⟩
      exact run_cons_eq_some.mpr ⟨middle, next, ran⟩

namespace Along

variable {good : σ → α → Prop}

/-- A condition on the actions alone is checked on the tape. -/
theorem of_forall {good : α → Prop} (each : ∀ action ∈ actions, good action) :
    Along step (fun _ action => good action) source actions := by
  intro before action after middle same _
  exact each action (by simp [same])

theorem nil : Along step good source [] := by
  intro before action after middle same
  simp at same

theorem head (along : Along step good source (action :: actions)) : good source action :=
  along [] action actions source rfl rfl

theorem tail (along : Along step good source (action :: actions))
    (next : step source action = some middle) : Along step good middle actions := by
  intro before other after s same ran
  exact along (action :: before) other after s (by rw [same, List.cons_append])
    (run_cons_eq_some.mpr ⟨middle, next, ran⟩)

theorem cons_iff (next : step source action = some middle) :
    Along step good source (action :: actions) ↔ good source action ∧ Along step good middle actions := by
  constructor
  · intro along
    exact ⟨along.head, along.tail next⟩
  · rintro ⟨now, later⟩ before other after s same ran
    cases before with
    | nil => cases same; cases ran; exact now
    | cons first before =>
      cases same
      obtain ⟨t, stepped, continued⟩ := run_cons_eq_some.mp ran
      cases next.symm.trans stepped
      exact later before other after s rfl continued

theorem left (along : Along step good source (first ++ second)) : Along step good source first := by
  intro before action after middle same ran
  exact along before action (after ++ second) middle (by simp [same]) ran

theorem right (along : Along step good source (first ++ second))
    (ran : run step source first = some middle) : Along step good middle second := by
  intro before action after s same continued
  exact along (first ++ before) action after s (by simp [same])
    (run_append_eq_some.mpr ⟨middle, ran, continued⟩)

end Along

/-- The invariant rule for runs all of whose steps meet a condition. -/
theorem run_invariant_along {motive : σ → Prop} {good : σ → α → Prop}
    (preserved : ∀ s a t, motive s → good s a → step s a = some t → motive t)
    (initial : motive source) (along : Along step good source actions)
    (ran : run step source actions = some target) : motive target := by
  induction actions generalizing source with
  | nil => cases ran; exact initial
  | cons action rest ih =>
    obtain ⟨middle, next, tail⟩ := run_cons_eq_some.mp ran
    exact ih (preserved source action middle initial along.head next) (along.tail next) tail

end RabbitJobQueue.Machine
