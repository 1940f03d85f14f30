import Mathlib.Data.List.Basic

/-! # Imperative code with exceptions

The meaning of a block of imperative code over a state: it may throw, and then the assignments it
has already made stay made; and it may fail to come back at all, which is the outer `none`. The
rules below take a block apart at its sequencing, so that a proof about a method is the list of
proofs about its statements.
-/

namespace RabbitJobQueue.Machine

variable {ξ σ α β : Type}

/-- Code over the state `σ` that throws `ξ`, returns `α`, or does not come back. -/
abbrev Effect (ξ σ : Type) := ExceptT ξ (StateT σ Option)

namespace Effect

/-- Run a block from a state, to its result or exception and the state it leaves. -/
def exec (code : Effect ξ σ α) (state : σ) : Option (Except ξ α × σ) := code.run.run state

/-- The block never comes back (a wait without end, a loop without end). -/
def diverge : Effect ξ σ α := ExceptT.mk (fun _ => none)

/-- Run the block for its effects and drop whatever it throws. -/
def swallow (code : Effect ξ σ Unit) : Effect ξ σ Unit := tryCatch code fun _ => pure ()

/-- Lift a function on states that either fails or has a result and a next state. -/
def ofExcept (update : σ → Except ξ α × σ) : Effect ξ σ α := ExceptT.mk fun state => some (update state)

variable {code : Effect ξ σ α} {next : α → Effect ξ σ β} {s t u : σ}

@[simp] theorem exec_pure (result : α) : (pure result : Effect ξ σ α).exec s = some (.ok result, s) := rfl

@[simp] theorem exec_throw (exception : ξ) :
    (throw exception : Effect ξ σ α).exec s = some (.error exception, s) := rfl

@[simp] theorem exec_get : (get : Effect ξ σ σ).exec s = some (.ok s, s) := rfl

@[simp] theorem exec_modify (update : σ → σ) :
    (modify update : Effect ξ σ Unit).exec s = some (.ok (), update s) := rfl

@[simp] theorem exec_diverge : (diverge : Effect ξ σ α).exec s = none := rfl

@[simp] theorem exec_ofExcept (update : σ → Except ξ α × σ) :
    (ofExcept update : Effect ξ σ α).exec s = some (update s) := rfl

/-- A statement that returns hands its result and its state to the rest of the block. -/
theorem exec_bind_of_ok {result : α} (ran : code.exec s = some (.ok result, t)) :
    (code >>= next).exec s = (next result).exec t := by
  change (code.run.run s).bind _ = _
  rw [show code.run.run s = some (.ok result, t) from ran]
  rfl

/-- A statement that throws ends the block. -/
theorem exec_bind_of_error {exception : ξ} (ran : code.exec s = some (.error exception, t)) :
    (code >>= next).exec s = some (.error exception, t) := by
  change (code.run.run s).bind _ = _
  rw [show code.run.run s = some (.error exception, t) from ran]
  rfl

private theorem exec_bind_of_none (ran : code.exec s = none) : (code >>= next).exec s = none := by
  change (code.run.run s).bind _ = _
  rw [show code.run.run s = none from ran]
  rfl

/-- The sequencing rule, read backwards from an outcome of the whole block. -/
theorem exec_bind_eq_some {result : Except ξ β} : (code >>= next).exec s = some (result, u) ↔
    (∃ value t, code.exec s = some (.ok value, t) ∧ (next value).exec t = some (result, u)) ∨
    ∃ exception, code.exec s = some (.error exception, u) ∧ result = .error exception := by
  cases ran : code.exec s with
  | none => simp [exec_bind_of_none ran]
  | some outcome =>
    obtain ⟨value | value, t⟩ := outcome
    · rw [exec_bind_of_error ran]
      simp only [Option.some.injEq, Prod.mk.injEq, reduceCtorEq, false_and, exists_false, false_or,
        Except.error.injEq]
      constructor
      · rintro ⟨rfl, rfl⟩; exact ⟨value, ⟨rfl, rfl⟩, rfl⟩
      · rintro ⟨_, ⟨rfl, rfl⟩, rfl⟩; exact ⟨rfl, rfl⟩
    · rw [exec_bind_of_ok ran]
      simp

/-- A block that returns is made of statements that return. -/
theorem exec_bind_eq_ok {value : β} : (code >>= next).exec s = some (.ok value, u) ↔
    ∃ middle t, code.exec s = some (.ok middle, t) ∧ (next middle).exec t = some (.ok value, u) := by
  rw [exec_bind_eq_some]
  constructor
  · rintro (returned | ⟨exception, -, same⟩)
    · exact returned
    · contradiction
  · exact .inl

@[simp] theorem exec_modify_bind (update : σ → σ) (rest : Unit → Effect ξ σ β) :
    ((modify update : Effect ξ σ Unit) >>= rest).exec s = (rest ()).exec (update s) := rfl

@[simp] theorem exec_get_bind (rest : σ → Effect ξ σ β) :
    ((get : Effect ξ σ σ) >>= rest).exec s = (rest s).exec s := rfl

@[simp] theorem exec_pure_bind (result : α) :
    ((pure result : Effect ξ σ α) >>= next).exec s = (next result).exec s := rfl

/-- A block that ends by returning a function of a result. -/
theorem exec_bind_pure (view : α → β) : (code >>= fun value => pure (view value)).exec s =
    (code.exec s).map fun (result, t) => (result.map view, t) := by
  cases ran : code.exec s with
  | none => exact exec_bind_of_none ran
  | some outcome =>
    obtain ⟨exception | value, t⟩ := outcome
    · exact exec_bind_of_error ran
    · exact exec_bind_of_ok ran

/-- So read backwards, its first part leaves the state it does. -/
theorem of_exec_bind_pure {view : α → β} {result : Except ξ β}
    (ran : (code >>= fun value => pure (view value)).exec s = some (result, u)) :
    ∃ outcome, code.exec s = some (outcome, u) ∧ result = outcome.map view := by
  rw [exec_bind_pure] at ran
  obtain ⟨⟨outcome, t⟩, first, same⟩ := Option.map_eq_some_iff.mp ran
  cases same
  exact ⟨outcome, first, rfl⟩

/-- Swallowing keeps what the block did and forgets how it ended. -/
theorem exec_swallow {block : Effect ξ σ Unit} :
    block.swallow.exec s = (block.exec s).map fun outcome => (.ok (), outcome.2) := by
  change (block.run.run s).bind _ = _
  change _ = (block.run.run s).map _
  cases block.run.run s with
  | none => rfl
  | some outcome =>
    obtain ⟨_ | _, t⟩ := outcome <;> rfl

end Effect

theorem except_ok_bind (middle : α) (rest : α → Except ξ β) :
    (Except.ok middle >>= rest) = rest middle := rfl

/-- A sequence that returns is made of statements that return. -/
theorem except_bind_eq_ok {first : Except ξ α} {rest : α → Except ξ β} {value : β} :
    (first >>= rest) = .ok value ↔ ∃ middle, first = .ok middle ∧ rest middle = .ok value := by
  cases first with
  | error exception => simp [bind, Except.bind]
  | ok middle => simp [bind, Except.bind]

/-- A check returns nothing, so it is only passed. -/
theorem check_bind_eq_ok {check : Except ξ Unit} {rest : Unit → Except ξ β} {value : β} :
    (check >>= rest) = .ok value ↔ check = .ok () ∧ rest () = .ok value := by
  rw [except_bind_eq_ok]
  exact ⟨fun ⟨_, passed, later⟩ => ⟨passed, later⟩, fun ⟨passed, later⟩ => ⟨(), passed, later⟩⟩

theorem except_map_eq_ok {first : Except ξ α} {view : α → β} {value : β} :
    view <$> first = .ok value ↔ ∃ middle, first = .ok middle ∧ view middle = value := by
  cases first with
  | error exception => simp [Functor.map, Except.map]
  | ok middle => simp [Functor.map, Except.map]

end RabbitJobQueue.Machine
