import Mathlib.Data.List.Infix

/-! # Handler pools

`JobHandlers`, `ErrorHandlers` and `SuccessHandlers` are the same class for three types of
message: an `ArrayList` that `register` appends to and that `execute` iterates over, calling one
handler after the other. Nothing keeps a handler from being registered during an execution; the
iterator notices at its next turn.
-/

namespace RabbitJobQueue.Model

/-- The handlers in the order of their registration. -/
structure HandlerPool (η : Type) where
  handlers : List η := []
deriving DecidableEq, Repr

def HandlerPool.register {η : Type} (pool : HandlerPool η) (handler : η) : HandlerPool η :=
  { handlers := pool.handlers ++ [handler] }

/-- A run of `execute`: the handlers its iterator was made for, those whose `handle` has returned,
and the one whose `handle` is running. -/
structure Execution (η : Type) where
  registered : List η
  returned : List η := []
  running : Option η := none
deriving DecidableEq, Repr

/-- What the loop of `forEach` does at its next turn. -/
inductive Turn (η : Type)
  | done
  | handle (handler : η)
  | threw
deriving DecidableEq, Repr

namespace HandlerPool

variable {η : Type}

/-- `execute` begins: the iterator remembers how often the list has been modified, that is how many
handlers there are. -/
def execute (pool : HandlerPool η) : Execution η := { registered := pool.handlers }

/-- `hasNext` compares the position with the size; only `next` notices a registration, and throws. -/
def turn (pool : HandlerPool η) (execution : Execution η) : Turn η :=
  if execution.returned.length = pool.handlers.length then .done
  else if pool.handlers.length ≠ execution.registered.length then .threw
  else match pool.handlers[execution.returned.length]? with
    | some handler => .handle handler
    | none => .threw

end HandlerPool

namespace Execution

variable {η : Type} {pool : HandlerPool η} {execution : Execution η} {handler : η}

/-- The running handler returns. -/
def finishHandler (execution : Execution η) : Execution η :=
  { execution with
    returned := execution.returned ++ execution.running.toList
    running := none }

/-- Every handler was registered when the execution began has been called, in that order, and has
returned. -/
def Complete (execution : Execution η) : Prop :=
  execution.running = none ∧ execution.returned = execution.registered

/-- The execution has not got ahead of the pool: its handlers are the first ones registered, and
it calls them in order. -/
structure Follows (execution : Execution η) (pool : HandlerPool η) : Prop where
  registered : execution.registered <+: pool.handlers
  called : execution.returned ++ execution.running.toList <+: execution.registered

theorem follows_execute (pool : HandlerPool η) : pool.execute.Follows pool :=
  ⟨List.prefix_refl _, List.nil_prefix⟩

theorem Follows.finishHandler (follows : execution.Follows pool) :
    execution.finishHandler.Follows pool :=
  ⟨follows.registered, by simpa [Execution.finishHandler] using follows.called⟩

/-- The handler called is the next one of those the execution began with. -/
theorem Follows.handle (follows : execution.Follows pool) (idle : execution.running = none)
    (turn : pool.turn execution = .handle handler) :
    ({ execution with running := some handler } : Execution η).Follows pool := by
  rw [HandlerPool.turn] at turn
  split at turn
  · contradiction
  · split at turn
    · contradiction
    · next unmodified =>
      have same : execution.registered = pool.handlers :=
        follows.registered.eq_of_length (Decidable.not_not.mp unmodified).symm
      split at turn <;> cases turn
      next read =>
      refine ⟨follows.registered, ?_⟩
      have returned : execution.returned <+: pool.handlers := by
        simpa [idle, same] using follows.called
      obtain ⟨rest, whole⟩ := returned
      rw [← whole, List.getElem?_append_right (Nat.le_refl _), Nat.sub_self] at read
      cases rest with
      | nil => simp at read
      | cons first later =>
        cases read
        exact ⟨later, by rw [same, ← whole]; simp⟩

/-- The loop only ends by itself when every handler has returned. -/
theorem Follows.complete (follows : execution.Follows pool) (idle : execution.running = none)
    (turn : pool.turn execution = .done) : execution.Complete := by
  rw [HandlerPool.turn] at turn
  split at turn
  · next end' =>
    have returned : execution.returned <+: execution.registered := by
      simpa [idle] using follows.called
    refine ⟨idle, returned.eq_of_length ?_⟩
    have upper := follows.registered.length_le
    have lower := returned.length_le
    omega
  · split at turn
    · contradiction
    · split at turn <;> contradiction

end Execution

end RabbitJobQueue.Model
