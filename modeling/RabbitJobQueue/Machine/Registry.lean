import Mathlib.Data.List.Basic
import Mathlib.Data.List.Nodup

/-! # Write-once registries

A registry binds keys to entries that carry them, and whoever declares an entry first binds its key for good.
An authority accepts or refuses each declaration, knowing the entries bound so far. Where it accepts exactly
what agrees, in what it compares, with the entry that already has the key, all declarations of one key that
have gone through agree, and a declaration is refused exactly by an entry that has its key and disagrees
with it.
-/

namespace RabbitJobQueue.Machine

/-- Entries by key, each key at most once. -/
structure Registry {δ κ : Type*} (key : δ → κ) where
  entries : List δ := []
  distinct : (entries.map key).Nodup := by exact List.nodup_nil

namespace Registry

variable {δ κ γ : Type*} {key : δ → κ} {compared : δ → γ} {accepts : List δ → δ → Bool} {among : δ → Prop}
  {registry next : Registry key} {entry first second : δ}

/-- Among the entries in question the authority accepts those that agree with what has their key. -/
def Compares (accepts : List δ → δ → Bool) (key : δ → κ) (compared : δ → γ) (among : δ → Prop) : Prop :=
  ∀ entries entry, (∀ known ∈ entries, among known) → among entry →
    (accepts entries entry = true ↔
      ∀ known ∈ entries, key known = key entry → compared known = compared entry)

/-- The key of the entry is bound to one that agrees with it. -/
def Holds (compared : δ → γ) (registry : Registry key) (entry : δ) : Prop :=
  ∃ known ∈ registry.entries, key known = key entry ∧ compared known = compared entry

/-- A key is bound once. -/
theorem eq_of_key (left : first ∈ registry.entries) (right : second ∈ registry.entries)
    (same : key first = key second) : first = second :=
  List.inj_on_of_nodup_map registry.distinct left right same

/-- Two entries of one key that a registry holds agree. -/
theorem Holds.compared_eq (left : registry.Holds compared first) (right : registry.Holds compared second)
    (same : key first = key second) : compared first = compared second := by
  obtain ⟨known, member, sameKey, agrees⟩ := left
  obtain ⟨known', member', sameKey', agrees'⟩ := right
  cases eq_of_key member member' (sameKey.trans (same.trans sameKey'.symm))
  exact agrees.symm.trans agrees'

variable [DecidableEq κ]

/-- Binds the key of an entry, unless it is bound. -/
def add (registry : Registry key) (entry : δ) : Registry key :=
  if bound : key entry ∈ registry.entries.map key then registry
  else {
    entries := registry.entries ++ [entry]
    distinct := by
      rw [List.map_append, List.nodup_append]
      refine ⟨registry.distinct, List.nodup_singleton _, ?_⟩
      rintro known member _ fresh rfl
      exact bound (List.mem_singleton.mp fresh ▸ member) }

/-- Asks the authority, and binds the key if it accepts. -/
def declare (accepts : List δ → δ → Bool) (registry : Registry key) (entry : δ) : Option (Registry key) :=
  if accepts registry.entries entry then some (registry.add entry) else none

theorem declare_eq_some : registry.declare accepts entry = some next ↔
    accepts registry.entries entry = true ∧ registry.add entry = next := by
  rw [declare, Option.ite_none_right_eq_some, Option.some_inj]

private theorem add_cases (registry : Registry key) (entry : δ) :
    (registry.add entry = registry ∧ ∃ known ∈ registry.entries, key known = key entry) ∨
      (registry.add entry).entries = registry.entries ++ [entry] := by
  rw [add]
  split
  · next bound => exact .inl ⟨rfl, List.mem_map.mp bound⟩
  · exact .inr rfl

theorem mem_of_declare (declared : registry.declare accepts entry = some next) {other : δ}
    (member : other ∈ next.entries) : other ∈ registry.entries ∨ other = entry := by
  obtain ⟨-, rfl⟩ := declare_eq_some.mp declared
  rcases add_cases registry entry with ⟨same, -⟩ | more
  · exact .inl (same ▸ member)
  · rwa [more, List.mem_append, List.mem_singleton] at member

/-- What a registry holds, it goes on to hold. -/
theorem Holds.declare (declared : registry.declare accepts entry = some next) {other : δ}
    (holds : registry.Holds compared other) : next.Holds compared other := by
  obtain ⟨-, rfl⟩ := declare_eq_some.mp declared
  rcases add_cases registry entry with ⟨same, -⟩ | more
  · rwa [same]
  · obtain ⟨known, member, agrees⟩ := holds
    exact ⟨known, more ▸ List.mem_append_left _ member, agrees⟩

/-- What has been accepted is held. -/
theorem holds_declared (rule : Compares accepts key compared among)
    (entries : ∀ known ∈ registry.entries, among known) (entered : among entry)
    (declared : registry.declare accepts entry = some next) : next.Holds compared entry := by
  obtain ⟨accepted, rfl⟩ := declare_eq_some.mp declared
  rcases add_cases registry entry with ⟨same, known, member, bound⟩ | more
  · rw [same]
    exact ⟨known, member, bound, (rule _ _ entries entered).mp accepted known member bound⟩
  · exact ⟨entry, by simp [more], rfl, rfl⟩

/-- Only an entry with the same key that disagrees makes the authority refuse a declaration. -/
theorem declare_eq_none (rule : Compares accepts key compared among)
    (entries : ∀ known ∈ registry.entries, among known) (entered : among entry) :
    registry.declare accepts entry = none ↔
      ∃ known ∈ registry.entries, key known = key entry ∧ compared known ≠ compared entry := by
  rw [Registry.declare, ite_eq_right_iff, rule _ _ entries entered]
  simp

variable [DecidableEq γ]

/-- The authority that compares with all entries. -/
def comparing (key : δ → κ) (compared : δ → γ) (entries : List δ) (entry : δ) : Bool :=
  entries.all fun known => decide (key known = key entry → compared known = compared entry)

theorem compares_comparing : Compares (comparing key compared) key compared among := by
  intro entries entry _ _
  rw [comparing, List.all_eq_true]
  simp only [decide_eq_true_eq]

end Registry

end RabbitJobQueue.Machine
