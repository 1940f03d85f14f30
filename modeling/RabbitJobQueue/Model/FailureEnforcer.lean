import Mathlib.Algebra.Group.Int.Defs
import Mathlib.Algebra.Group.Nat.Defs
import RabbitJobQueue.Machine.Effect
import Mathlib.Data.Int.Notation
import Mathlib.Data.Stream.Defs

/-! # Failure policies of the executor pool

`ExecutorFailureEnforcer` is the interface the pool calls; an application may implement it itself,
so an implementation is any state with three methods that may assign to it, read the clock and
throw. `maxTotalFailures` is the policy that counts every failure of the pool's life.
-/

namespace RabbitJobQueue.Model

open Machine

/-- Exceptions, by the class the source or the JDK throws; `other` stands for any checked failure
of the client library. -/
inductive Throwable
  | illegalArgument (message : Option String)
  | illegalState (message : String)
  | nullPointer
  | rejectedExecution
  | execution
  | cancellation
  | interrupted
  | alreadyClosed
  | concurrentModification
  | noSuchElement
  | other (message : String)
deriving DecidableEq, Repr

/-- The readings `System.currentTimeMillis` will return, in the order they are taken. -/
abbrev Clock := Stream' ℤ

class ExecutorFailureEnforcer (ε : Type) where
  markFailure : Effect Throwable (ε × Clock) Unit
  shouldHalt : Effect Throwable (ε × Clock) Bool
  reason : Effect Throwable (ε × Clock) String

/-- No method of the enforcer throws, whatever state it is in. -/
structure ExecutorFailureEnforcer.NeverThrows (ε : Type) [ExecutorFailureEnforcer ε] : Prop where
  markFailure : ∀ (state next : ε × Clock) exception,
    (ExecutorFailureEnforcer.markFailure (ε := ε)).exec state ≠ some (.error exception, next)
  shouldHalt : ∀ (state next : ε × Clock) exception,
    (ExecutorFailureEnforcer.shouldHalt (ε := ε)).exec state ≠ some (.error exception, next)
  reason : ∀ (state next : ε × Clock) exception,
    (ExecutorFailureEnforcer.reason (ε := ε)).exec state ≠ some (.error exception, next)

/-- Every method of the enforcer comes back, whatever state it is in. -/
structure ExecutorFailureEnforcer.Responds (ε : Type) [ExecutorFailureEnforcer ε] : Prop where
  markFailure : ∀ state : ε × Clock, (ExecutorFailureEnforcer.markFailure (ε := ε)).exec state ≠ none
  shouldHalt : ∀ state : ε × Clock, (ExecutorFailureEnforcer.shouldHalt (ε := ε)).exec state ≠ none
  reason : ∀ state : ε × Clock, (ExecutorFailureEnforcer.reason (ε := ε)).exec state ≠ none

/-- `config/MaxFailureEnforcer.kt`; both numbers are Kotlin `UInt`s. -/
structure MaxFailureEnforcer where
  maxFailures : UInt32
  failureCount : UInt32 := 0
deriving DecidableEq, Repr

namespace MaxFailureEnforcer

def markFailure : Effect Throwable (MaxFailureEnforcer × Clock) Unit :=
  modify fun (enforcer, clock) => ({ enforcer with failureCount := enforcer.failureCount + 1 }, clock)

def shouldHalt : Effect Throwable (MaxFailureEnforcer × Clock) Bool := do
  let (enforcer, _) ← get
  pure (decide (enforcer.failureCount > enforcer.maxFailures))

def reason : Effect Throwable (MaxFailureEnforcer × Clock) String := do
  let (enforcer, _) ← get
  pure s!"process exceeded {enforcer.maxFailures} total failures"

instance : ExecutorFailureEnforcer MaxFailureEnforcer where
  markFailure := markFailure
  shouldHalt := shouldHalt
  reason := reason

theorem neverThrows : ExecutorFailureEnforcer.NeverThrows MaxFailureEnforcer where
  markFailure state next exception thrown := by
    change some (Except.ok (), _) = some (Except.error exception, next) at thrown
    simp at thrown
  shouldHalt state next exception thrown := by
    change some (Except.ok _, _) = some (Except.error exception, next) at thrown
    simp at thrown
  reason state next exception thrown := by
    change some (Except.ok _, _) = some (Except.error exception, next) at thrown
    simp at thrown

theorem responds : ExecutorFailureEnforcer.Responds MaxFailureEnforcer where
  markFailure _ := Option.some_ne_none _
  shouldHalt _ := Option.some_ne_none _
  reason _ := Option.some_ne_none _

end MaxFailureEnforcer

/-- `ExecutorFailurePolicy.maxTotalFailures`: a Kotlin `Int` limit, reread as a `UInt`. -/
def maxTotalFailures (max : Int32) : MaxFailureEnforcer := { maxFailures := max.toUInt32 }

end RabbitJobQueue.Model
