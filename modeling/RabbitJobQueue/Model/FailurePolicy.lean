import RabbitJobQueue.Machine.SlidingWindow
import RabbitJobQueue.Model.Duration
import RabbitJobQueue.Model.FailureEnforcer
import Mathlib.Data.Prod.Basic

/-! # Failure policies and their enforcers

`ExecutorFailurePolicy` is a factory of enforcers: `maxFailuresWithin` counts the failures of a sliding
window, `maxTotalFailures` all failures, `ofAny` asks other policies in turn. An enforcer is the tree of the
objects its factory has constructed, one for every occurrence of a policy. Each `System.currentTimeMillis()`
takes one reading of the clock, so a method that asks several windows reads the clock several times.
-/

namespace RabbitJobQueue.Model

open Machine

/-- `utils/ScrollingCounter.kt`. -/
structure ScrollingCounter where
  maxDelta : ℤ
  entries : List ℤ := []
deriving DecidableEq, Repr

namespace ScrollingCounter

def new (windowDuration : SignedDuration := ⟨5000000000⟩) : ScrollingCounter :=
  { maxDelta := windowDuration.inWholeMilliseconds }

def inc (counter : ScrollingCounter) (clock : Clock) : ScrollingCounter × Clock :=
  ({ counter with entries := counter.entries ++ [clock.head] }, clock.tail)

/-- `entries.size` of so many entries: a `LinkedList` counts them in an `Int`, which wraps. -/
def size (length : ℕ) : Int32 := Int32.ofNat length

/-- `entries.isNotEmpty`. -/
def isNotEmpty (length : ℕ) : Bool := size length ≠ 0

/-- The loop pops the first entry as long as there is one and it lies before the cutoff. -/
def count (counter : ScrollingCounter) (clock : Clock) : UInt32 × ScrollingCounter × Clock :=
  let cutoff := clock.head - counter.maxDelta
  let entries := prune isNotEmpty cutoff counter.entries
  ((size entries.length).toUInt32, { counter with entries }, clock.tail)

@[simp] theorem toUInt32_size (length : ℕ) : (size length).toUInt32 = UInt32.ofNat length := rfl

/-- Below 2^32 entries the size is zero only if there are none. -/
theorem isNotEmpty_of_pos {length : ℕ} (some : 0 < length) (few : length < 2 ^ 32) :
    isNotEmpty length = true := by
  rw [isNotEmpty, decide_eq_true_iff]
  intro none
  have zero := congrArg (fun size => size.toUInt32.toNat) none
  simp only [toUInt32_size, UInt32.toNat_ofNat', Nat.mod_eq_of_lt few] at zero
  exact absurd zero (Nat.ne_of_gt some)

theorem prune_of_few {entries : List ℤ} (few : entries.length < 2 ^ 32) (cutoff : ℤ) :
    prune isNotEmpty cutoff entries = entries.dropWhile fun first => decide (first < cutoff) :=
  Machine.prune_eq_dropWhile fun _ some atMost => isNotEmpty_of_pos some (Nat.lt_of_le_of_lt atMost few)

def compareTo (counter : ScrollingCounter) (value : UInt32) (clock : Clock) :
    Ordering × ScrollingCounter × Clock :=
  let (count, counter, clock) := counter.count clock
  (compare count value, counter, clock)

end ScrollingCounter

/-- `config/WindowedFailureEnforcer.kt`. -/
structure WindowedFailureEnforcer where
  maxFailures : UInt32
  within : SignedDuration
  counter : ScrollingCounter := .new within
deriving DecidableEq, Repr

namespace WindowedFailureEnforcer

def markFailure (enforcer : WindowedFailureEnforcer) (clock : Clock) : WindowedFailureEnforcer × Clock :=
  let (counter, clock) := enforcer.counter.inc clock
  ({ enforcer with counter }, clock)

/-- `counter > maxFailures`. -/
def shouldHalt (enforcer : WindowedFailureEnforcer) (clock : Clock) :
    Bool × WindowedFailureEnforcer × Clock :=
  let (order, counter, clock) := enforcer.counter.compareTo enforcer.maxFailures clock
  (order == .gt, { enforcer with counter }, clock)

def reason (enforcer : WindowedFailureEnforcer) : String :=
  s!"process exceeded {enforcer.maxFailures} within {enforcer.within}"

end WindowedFailureEnforcer

namespace MaxFailureEnforcer

/-- What `markFailure` makes of the enforcer. -/
def marked (enforcer : MaxFailureEnforcer) : MaxFailureEnforcer :=
  { enforcer with failureCount := enforcer.failureCount + 1 }

/-- What `shouldHalt` answers. -/
def exceeded (enforcer : MaxFailureEnforcer) : Bool :=
  decide (enforcer.failureCount > enforcer.maxFailures)

/-- What `reason` answers. -/
def text (enforcer : MaxFailureEnforcer) : String :=
  s!"process exceeded {enforcer.maxFailures} total failures"

end MaxFailureEnforcer

/-- The objects behind an enforcer that a policy has made; `any` is `config/AnyFailureEnforcer.kt`. -/
inductive PolicyEnforcer
  | windowed (enforcer : WindowedFailureEnforcer)
  | total (enforcer : MaxFailureEnforcer)
  | any (enforcers : List PolicyEnforcer)
deriving Repr

namespace PolicyEnforcer

mutual

def markFailure : PolicyEnforcer → Clock → PolicyEnforcer × Clock
  | .windowed enforcer, clock =>
    let (enforcer, clock) := enforcer.markFailure clock
    (.windowed enforcer, clock)
  | .total enforcer, clock => (.total enforcer.marked, clock)
  | .any enforcers, clock =>
    let (enforcers, clock) := forEachMarkFailure enforcers clock
    (.any enforcers, clock)

/-- `enforcers.forEach(ExecutorFailureEnforcer::markFailure)`. -/
def forEachMarkFailure : List PolicyEnforcer → Clock → List PolicyEnforcer × Clock
  | [], clock => ([], clock)
  | enforcer :: rest, clock =>
    let (enforcer, clock) := markFailure enforcer clock
    let (rest, clock) := forEachMarkFailure rest clock
    (enforcer :: rest, clock)

end

mutual

def shouldHalt : PolicyEnforcer → Clock → Bool × PolicyEnforcer × Clock
  | .windowed enforcer, clock =>
    let (halt, enforcer, clock) := enforcer.shouldHalt clock
    (halt, .windowed enforcer, clock)
  | .total enforcer, clock => (enforcer.exceeded, .total enforcer, clock)
  | .any enforcers, clock =>
    let (halt, enforcers, clock) := anyShouldHalt enforcers clock
    (halt, .any enforcers, clock)

/-- `enforcers.any(ExecutorFailureEnforcer::shouldHalt)`: the enforcers behind the first one that says
halt are not asked. -/
def anyShouldHalt : List PolicyEnforcer → Clock → Bool × List PolicyEnforcer × Clock
  | [], clock => (false, [], clock)
  | enforcer :: rest, clock =>
    match shouldHalt enforcer clock with
    | (true, enforcer, clock) => (true, enforcer :: rest, clock)
    | (false, enforcer, clock) =>
      let (halt, rest, clock) := anyShouldHalt rest clock
      (halt, enforcer :: rest, clock)

end

mutual

/-- How deep the enforcers are nested. -/
def depth : PolicyEnforcer → ℕ
  | .windowed _ => 0
  | .total _ => 0
  | .any enforcers => depths enforcers + 1

def depths : List PolicyEnforcer → ℕ
  | [] => 0
  | enforcer :: rest => max (depth enforcer) (depths rest)

end

mutual

theorem depth_shouldHalt : ∀ (enforcer : PolicyEnforcer) (clock : Clock),
    (shouldHalt enforcer clock).2.1.depth = enforcer.depth
  | .windowed _, _ => rfl
  | .total _, _ => rfl
  | .any enforcers, clock => by
    simp only [shouldHalt, depth]
    rw [depths_anyShouldHalt enforcers clock]

theorem depths_anyShouldHalt : ∀ (enforcers : List PolicyEnforcer) (clock : Clock),
    depths (anyShouldHalt enforcers clock).2.1 = depths enforcers
  | [], _ => rfl
  | enforcer :: rest, clock => by
    have same := depth_shouldHalt enforcer clock
    simp only [anyShouldHalt]
    split
    · next halted => rw [depths, depths, ← same, halted]
    · next halted => rw [depths, depths, depths_anyShouldHalt rest, ← same, halted]

end

mutual

/-- `enforcers.first(ExecutorFailureEnforcer::shouldHalt).reason()`: every level asks its enforcers again. -/
def reason : PolicyEnforcer → Clock → Except Throwable String × PolicyEnforcer × Clock
  | .windowed enforcer, clock => (.ok enforcer.reason, .windowed enforcer, clock)
  | .total enforcer, clock => (.ok enforcer.text, .total enforcer, clock)
  | .any enforcers, clock =>
    let (message, enforcers, clock) := firstReason enforcers clock
    (message, .any enforcers, clock)
termination_by enforcer => (2 * enforcer.depth, 0)
decreasing_by simp only [depth]; exact .left _ _ (by omega)

def firstReason : List PolicyEnforcer → Clock → Except Throwable String × List PolicyEnforcer × Clock
  | [], clock => (.error .noSuchElement, [], clock)
  | enforcer :: rest, clock =>
    match _ : shouldHalt enforcer clock with
    | (true, first, later) =>
      let (message, first, clock) := reason first later
      (message, first :: rest, clock)
    | (false, asked, later) =>
      let (message, rest, clock) := firstReason rest later
      (message, asked :: rest, clock)
termination_by enforcers => (2 * depths enforcers + 1, enforcers.length)
decreasing_by
  · have same : first.depth = enforcer.depth := by
      rw [← depth_shouldHalt enforcer clock, ‹enforcer.shouldHalt clock = _›]
    rw [Prod.lex_def]
    simp only [depths]
    omega
  · rw [Prod.lex_def]
    simp only [depths, List.length_cons]
    omega

end

instance : ExecutorFailureEnforcer PolicyEnforcer where
  markFailure := modify fun (enforcer, clock) => enforcer.markFailure clock
  shouldHalt := .ofExcept fun (enforcer, clock) =>
    let (halt, next) := enforcer.shouldHalt clock
    (.ok halt, next)
  reason := .ofExcept fun (enforcer, clock) => enforcer.reason clock

/-- The enforcers of the library's own policies all come back. -/
theorem responds : ExecutorFailureEnforcer.Responds PolicyEnforcer where
  markFailure _ := Option.some_ne_none _
  shouldHalt _ := Option.some_ne_none _
  reason _ := Option.some_ne_none _

end PolicyEnforcer

/-- The policies of `ExecutorFailurePolicy.Companion`. -/
inductive ExecutorFailurePolicy
  | maxFailuresWithin (max : Int32) (within : SignedDuration)
  | maxTotalFailures (max : Int32)
  | ofAny (others : List ExecutorFailurePolicy)
deriving Repr

namespace ExecutorFailurePolicy

mutual

def newEnforcer : ExecutorFailurePolicy → PolicyEnforcer
  | .maxFailuresWithin max within => .windowed { maxFailures := max.toUInt32, within }
  | .maxTotalFailures max => .total (Model.maxTotalFailures max)
  | .ofAny others => .any (newEnforcers others)

/-- `policies.map(ExecutorFailurePolicy::newEnforcer)`. -/
def newEnforcers : List ExecutorFailurePolicy → List PolicyEnforcer
  | [] => []
  | policy :: rest => newEnforcer policy :: newEnforcers rest

end

end ExecutorFailurePolicy

/-- `ExecutorConfig.getOrCreateFailureEnforcer`: without a policy, twice as many failures as there are
workers, within two seconds. -/
def getOrCreateFailureEnforcer (workers : Int32) (failurePolicy : Option ExecutorFailurePolicy) :
    PolicyEnforcer :=
  match failurePolicy with
  | some policy => policy.newEnforcer
  | none => .windowed { maxFailures := (workers * 2).toUInt32, within := ⟨2000000000⟩ }

/-- The calls a pool makes on its failure checker. -/
inductive CheckerCall
  | markFailure
  | shouldHalt
  | reason
deriving DecidableEq, Repr

/-- The state a call leaves, whatever it returns or throws. -/
def CheckerCall.step {ε : Type} [ExecutorFailureEnforcer ε] (state : ε × Clock) :
    CheckerCall → Option (ε × Clock)
  | .markFailure => ((ExecutorFailureEnforcer.markFailure (ε := ε)).exec state).map (·.2)
  | .shouldHalt => ((ExecutorFailureEnforcer.shouldHalt (ε := ε)).exec state).map (·.2)
  | .reason => ((ExecutorFailureEnforcer.reason (ε := ε)).exec state).map (·.2)

/-- A call that is over before the clock has moved: all its readings are the same. -/
structure TimedCall where
  call : CheckerCall
  time : ℤ
deriving DecidableEq, Repr

namespace TimedCall

variable {ε : Type} [ExecutorFailureEnforcer ε]

def step (enforcer : ε) (event : TimedCall) : Option ε :=
  (event.call.step (enforcer, Stream'.const event.time)).map (·.1)

/-- What `shouldHalt` answers at a time. -/
def haltsAt (enforcer : ε) (now : ℤ) : Option (Except Throwable Bool) :=
  ((ExecutorFailureEnforcer.shouldHalt (ε := ε)).exec (enforcer, Stream'.const now)).map (·.1)

/-- The times of the failures marked. -/
def failures (history : List TimedCall) : List ℤ :=
  (history.filter (·.call == .markFailure)).map (·.time)

end TimedCall

end RabbitJobQueue.Model
