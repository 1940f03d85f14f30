import Mathlib.Data.Int.Order.Basic
import Mathlib.Data.Stream.Init
import RabbitJobQueue.Machine.Run
import RabbitJobQueue.Machine.SlidingWindow
import RabbitJobQueue.Model.FailurePolicy

/-! # Enforcers that forget nothing

An enforcer that keeps every failure it has been told of gives the same answers as the real one, which
drops what has left a window whenever it is asked, and asks only until the first answer is found. The
relation `Agrees` between the two is kept by every method, as long as the clock does not go back and, for
a failure that is marked, no window has 2^32 of them. For the enforcer that keeps everything, asking
changes nothing: its answer is a function of the failures.
-/

namespace RabbitJobQueue.Model

open Machine

/-- No reading is before the one taken ahead of it. -/
def Clock.Runs (clock : Clock) : Prop := ∀ i, clock.get i ≤ clock.get (i + 1)

theorem Clock.runs_const (time : ℤ) : Clock.Runs (Stream'.const time) := fun _ => le_refl time

theorem Clock.Runs.cons {time : ℤ} {clock : Clock} (first : time ≤ clock.head) (runs : clock.Runs) :
    Clock.Runs (.cons time clock)
  | 0 => first
  | i + 1 => runs i

/-- Some readings have been taken in between. -/
def Clock.Precedes (before after : Clock) : Prop := ∃ taken, after = before.drop taken

namespace Clock.Precedes

variable {before after last : Clock}

private theorem refl (clock : Clock) : Clock.Precedes clock clock := ⟨0, rfl⟩

private theorem tail (clock : Clock) : Clock.Precedes clock clock.tail := ⟨1, rfl⟩

private theorem trans (first : before.Precedes after) (second : after.Precedes last) :
    before.Precedes last := by
  obtain ⟨taken, rfl⟩ := first
  obtain ⟨more, rfl⟩ := second
  exact ⟨_, Stream'.drop_drop ..⟩

private theorem runs (precedes : before.Precedes after) (runs : before.Runs) : after.Runs := by
  obtain ⟨taken, rfl⟩ := precedes
  intro i
  have next := runs (i + taken)
  rwa [Nat.add_right_comm] at next

private theorem head_le (precedes : before.Precedes after) (runs : before.Runs) :
    before.head ≤ after.head := by
  obtain ⟨taken, rfl⟩ := precedes
  induction taken with
  | zero => exact le_refl _
  | succ taken ih =>
    have next : before.get (0 + taken) ≤ before.get (0 + (taken + 1)) := runs (0 + taken)
    exact ih.trans next

/-- A clock that stands still goes on standing still. -/
theorem of_const {time : ℤ} (precedes : Clock.Precedes (Stream'.const time) after) :
    after = Stream'.const time := by
  obtain ⟨taken, rfl⟩ := precedes
  rfl

end Clock.Precedes

namespace WindowedFailureEnforcer

open ScrollingCounter

/-- Of the failures noted, more than allowed are left in the window that ends now. -/
def exceededAt (enforcer : WindowedFailureEnforcer) (now : ℤ) : Bool :=
  decide (enforcer.maxFailures <
    UInt32.ofNat (prune isNotEmpty (now - enforcer.counter.maxDelta) enforcer.counter.entries).length)

/-- A window that ends at `bound` or later finds the same entries in both. -/
structure Agrees (bound : ℤ) (ideal real : WindowedFailureEnforcer) : Prop where
  maxFailures : real.maxFailures = ideal.maxFailures
  maxDelta : real.counter.maxDelta = ideal.counter.maxDelta
  same : ∀ cutoff, bound - ideal.counter.maxDelta ≤ cutoff →
    prune isNotEmpty cutoff real.counter.entries = prune isNotEmpty cutoff ideal.counter.entries
  shorter : real.counter.entries.length ≤ ideal.counter.entries.length

variable {ideal real : WindowedFailureEnforcer} {bound : ℤ} {clock : Clock}

private theorem Agrees.refl (enforcer : WindowedFailureEnforcer) : Agrees bound enforcer enforcer :=
  ⟨rfl, rfl, fun _ _ => rfl, Nat.le_refl _⟩

private theorem Agrees.mono {later : ℤ} (agrees : Agrees bound ideal real) (after : bound ≤ later) :
    Agrees later ideal real where
  maxFailures := agrees.maxFailures
  maxDelta := agrees.maxDelta
  same cutoff inside := agrees.same cutoff (by omega)
  shorter := agrees.shorter

/-- A failure goes to the end of both, as long as neither size wraps. -/
theorem Agrees.markFailure (agrees : Agrees bound ideal real)
    (few : ideal.counter.entries.length + 1 < 2 ^ 32) :
    Agrees bound (ideal.markFailure clock).1 (real.markFailure clock).1 where
  maxFailures := agrees.maxFailures
  maxDelta := agrees.maxDelta
  same cutoff inside := by
    have shorter := agrees.shorter
    have before := agrees.same cutoff inside
    rw [prune_of_few (by omega), prune_of_few (by omega)] at before
    change prune _ _ (real.counter.entries ++ [clock.head]) = prune _ _ (ideal.counter.entries ++ [clock.head])
    rw [prune_of_few (by simp; omega), prune_of_few (by simp; omega), List.dropWhile_append,
      List.dropWhile_append, before]
  shorter := by
    change (real.counter.entries ++ [clock.head]).length ≤ (ideal.counter.entries ++ [clock.head]).length
    rw [List.length_append, List.length_append]
    exact Nat.add_le_add_right agrees.shorter _

private theorem shouldHalt_answer (agrees : Agrees clock.head ideal real) :
    (real.shouldHalt clock).1 = ideal.exceededAt clock.head := by
  change (compare _ _ == Ordering.gt) = _
  rw [exceededAt, Bool.eq_iff_iff, beq_iff_eq, Std.compare_eq_gt, decide_eq_true_iff, agrees.maxFailures,
    agrees.maxDelta, agrees.same _ (le_refl _), toUInt32_size]

private theorem Agrees.shouldHalt (agrees : Agrees clock.head ideal real) :
    Agrees clock.head ideal (real.shouldHalt clock).2.1 where
  maxFailures := agrees.maxFailures
  maxDelta := agrees.maxDelta
  same cutoff inside := by
    change prune _ _ (prune _ (clock.head - real.counter.maxDelta) real.counter.entries) = _
    rw [agrees.maxDelta, prune_prune inside, agrees.same cutoff inside]
  shorter := Nat.le_trans length_prune_le agrees.shorter

end WindowedFailureEnforcer

namespace PolicyEnforcer

mutual

/-- Whether a limit is exceeded, each looked at when its turn comes, and the readings left after that. -/
def exceeds : PolicyEnforcer → Clock → Bool × Clock
  | .windowed enforcer, clock => (enforcer.exceededAt clock.head, clock.tail)
  | .total enforcer, clock => (enforcer.exceeded, clock)
  | .any enforcers, clock => anyExceeds enforcers clock

def anyExceeds : List PolicyEnforcer → Clock → Bool × Clock
  | [], clock => (false, clock)
  | enforcer :: rest, clock =>
    match exceeds enforcer clock with
    | (true, clock) => (true, clock)
    | (false, clock) => anyExceeds rest clock

end

mutual

/-- The same objects, up to entries that have left their windows. -/
inductive Agrees (bound : ℤ) : PolicyEnforcer → PolicyEnforcer → Prop
  | windowed {ideal real} (agrees : ideal.Agrees bound real) : Agrees bound (.windowed ideal) (.windowed real)
  | total {enforcer} : Agrees bound (.total enforcer) (.total enforcer)
  | any {ideals reals} (agree : AgreeAll bound ideals reals) : Agrees bound (.any ideals) (.any reals)

inductive AgreeAll (bound : ℤ) : List PolicyEnforcer → List PolicyEnforcer → Prop
  | nil : AgreeAll bound [] []
  | cons {ideal real ideals reals} (agrees : Agrees bound ideal real) (agree : AgreeAll bound ideals reals) :
    AgreeAll bound (ideal :: ideals) (real :: reals)

end

variable {bound later : ℤ}

mutual

theorem Agrees.mono : ∀ {ideal real : PolicyEnforcer}, Agrees bound ideal real → bound ≤ later →
    Agrees later ideal real
  | .windowed _, _, .windowed agrees, after => .windowed (agrees.mono after)
  | .total _, _, .total, _ => .total
  | .any _, _, .any agree, after => .any (agree.mono after)

private theorem AgreeAll.mono :
    ∀ {ideals reals : List PolicyEnforcer}, AgreeAll bound ideals reals → bound ≤ later →
    AgreeAll later ideals reals
  | [], _, .nil, _ => .nil
  | _ :: _, _, .cons agrees agree, after => .cons (agrees.mono after) (agree.mono after)

end

/-- What a method call leaves: the clock has run on, and the two enforcers agree at its next reading. -/
structure Kept (before after : Clock) (ideal real : PolicyEnforcer) : Prop where
  precedes : before.Precedes after
  agrees : Agrees after.head ideal real

structure KeptAll (before after : Clock) (ideals reals : List PolicyEnforcer) : Prop where
  precedes : before.Precedes after
  agree : AgreeAll after.head ideals reals

/-- The enforcers that have not been asked still agree after those in front of them have been. -/
theorem Kept.others {before after : Clock} {ideal real : PolicyEnforcer} {ideals reals : List PolicyEnforcer}
    (kept : Kept before after ideal real) (runs : before.Runs) (agree : AgreeAll before.head ideals reals) :
    AgreeAll after.head ideals reals := agree.mono (kept.precedes.head_le runs)

private theorem KeptAll.cons {before middle after : Clock} {ideal real : PolicyEnforcer}
    {ideals reals : List PolicyEnforcer} (runs : before.Runs) (first : Kept before middle ideal real)
    (rest : KeptAll middle after ideals reals) : KeptAll before after (ideal :: ideals) (real :: reals) where
  precedes := first.precedes.trans rest.precedes
  agree := .cons (first.agrees.mono (rest.precedes.head_le (first.precedes.runs runs))) rest.agree

mutual

theorem Agrees.refl : ∀ enforcer : PolicyEnforcer, Agrees bound enforcer enforcer
  | .windowed enforcer => .windowed (.refl enforcer)
  | .total _ => .total
  | .any enforcers => .any (AgreeAll.refl enforcers)

private theorem AgreeAll.refl : ∀ enforcers : List PolicyEnforcer, AgreeAll bound enforcers enforcers
  | [] => .nil
  | enforcer :: rest => .cons (Agrees.refl enforcer) (AgreeAll.refl rest)

end

mutual

/-- Marking a failure reads the clock once for every window. -/
theorem precedes_markFailure : ∀ (enforcer : PolicyEnforcer) (clock : Clock),
    clock.Precedes (enforcer.markFailure clock).2
  | .windowed _, clock => .tail clock
  | .total _, clock => .refl clock
  | .any enforcers, clock => precedes_forEachMarkFailure enforcers clock

private theorem precedes_forEachMarkFailure : ∀ (enforcers : List PolicyEnforcer) (clock : Clock),
    clock.Precedes (forEachMarkFailure enforcers clock).2
  | [], clock => .refl clock
  | enforcer :: rest, clock =>
    (precedes_markFailure enforcer clock).trans (precedes_forEachMarkFailure rest _)

end

mutual

/-- The most failures that a window has noted. -/
def held : PolicyEnforcer → ℕ
  | .windowed enforcer => enforcer.counter.entries.length
  | .total _ => 0
  | .any enforcers => heldByAny enforcers

def heldByAny : List PolicyEnforcer → ℕ
  | [] => 0
  | enforcer :: rest => max (held enforcer) (heldByAny rest)

end

mutual

theorem held_markFailure : ∀ (enforcer : PolicyEnforcer) (clock : Clock),
    (enforcer.markFailure clock).1.held ≤ enforcer.held + 1
  | .windowed enforcer, clock => by
    change (enforcer.counter.entries ++ [clock.head]).length ≤ enforcer.counter.entries.length + 1
    rw [List.length_append, List.length_singleton]
  | .total _, _ => Nat.zero_le _
  | .any enforcers, clock => heldByAny_forEachMarkFailure enforcers clock

private theorem heldByAny_forEachMarkFailure : ∀ (enforcers : List PolicyEnforcer) (clock : Clock),
    heldByAny (forEachMarkFailure enforcers clock).1 ≤ heldByAny enforcers + 1
  | [], _ => Nat.zero_le _
  | enforcer :: rest, clock => by
    have first := held_markFailure enforcer clock
    have others := heldByAny_forEachMarkFailure rest (enforcer.markFailure clock).2
    simp only [forEachMarkFailure, heldByAny]
    omega

end

mutual

/-- Marking a failure is told to both. -/
theorem Agrees.markFailure : ∀ {ideal real : PolicyEnforcer} {clock : Clock}, clock.Runs →
    ideal.held + 1 < 2 ^ 32 → Agrees clock.head ideal real →
    (real.markFailure clock).2 = (ideal.markFailure clock).2 ∧
      Agrees (ideal.markFailure clock).2.head (ideal.markFailure clock).1 (real.markFailure clock).1
  | .windowed _, _, _, runs, few, .windowed agrees => ⟨rfl, .windowed ((agrees.markFailure few).mono (runs 0))⟩
  | .total _, _, _, _, _, .total => ⟨rfl, .total⟩
  | .any _, _, _, runs, few, .any agree =>
    have ⟨same, kept⟩ := agree.forEachMarkFailure runs few
    ⟨same, .any kept⟩

private theorem AgreeAll.forEachMarkFailure :
    ∀ {ideals reals : List PolicyEnforcer} {clock : Clock}, clock.Runs →
    heldByAny ideals + 1 < 2 ^ 32 → AgreeAll clock.head ideals reals →
    (PolicyEnforcer.forEachMarkFailure reals clock).2 = (PolicyEnforcer.forEachMarkFailure ideals clock).2 ∧
      AgreeAll (PolicyEnforcer.forEachMarkFailure ideals clock).2.head
        (PolicyEnforcer.forEachMarkFailure ideals clock).1 (PolicyEnforcer.forEachMarkFailure reals clock).1
  | [], _, _, _, _, .nil => ⟨rfl, .nil⟩
  | ideal :: ideals, _ :: reals, clock, runs, few, .cons agrees agree => by
    rw [heldByAny] at few
    have first := precedes_markFailure ideal clock
    have onward := first.runs runs
    obtain ⟨same, kept⟩ := agrees.markFailure runs (by omega)
    obtain ⟨sameRest, rest⟩ := (agree.mono (first.head_le runs)).forEachMarkFailure onward (by omega)
    simp only [PolicyEnforcer.forEachMarkFailure, same]
    refine ⟨sameRest, .cons (kept.mono ?_) rest⟩
    exact (precedes_forEachMarkFailure ideals _).head_le onward

end

mutual

/-- Asking the real enforcer answers what the ideal one exceeds, at the same readings. -/
theorem Agrees.shouldHalt : ∀ {ideal real : PolicyEnforcer} {clock : Clock}, clock.Runs →
    Agrees clock.head ideal real → (real.shouldHalt clock).1 = (ideal.exceeds clock).1 ∧
      (real.shouldHalt clock).2.2 = (ideal.exceeds clock).2 ∧
      Kept clock (ideal.exceeds clock).2 ideal (real.shouldHalt clock).2.1
  | .windowed _, _, clock, runs, .windowed agrees =>
    ⟨WindowedFailureEnforcer.shouldHalt_answer agrees, rfl, .tail clock,
      .windowed (agrees.shouldHalt.mono (runs 0))⟩
  | .total _, _, clock, _, .total => ⟨rfl, rfl, .refl clock, .total⟩
  | .any _, _, _, runs, .any agree =>
    have ⟨answer, readings, kept⟩ := agree.anyShouldHalt runs
    ⟨answer, readings, kept.precedes, .any kept.agree⟩

private theorem AgreeAll.anyShouldHalt : ∀ {ideals reals : List PolicyEnforcer} {clock : Clock}, clock.Runs →
    AgreeAll clock.head ideals reals →
    (PolicyEnforcer.anyShouldHalt reals clock).1 = (anyExceeds ideals clock).1 ∧
      (PolicyEnforcer.anyShouldHalt reals clock).2.2 = (anyExceeds ideals clock).2 ∧
      KeptAll clock (anyExceeds ideals clock).2 ideals (PolicyEnforcer.anyShouldHalt reals clock).2.1
  | [], _, clock, _, .nil => ⟨rfl, rfl, .refl clock, .nil⟩
  | ideal :: ideals, real :: reals, clock, runs, .cons agrees agree => by
    obtain ⟨answer, readings, first⟩ := agrees.shouldHalt runs
    cases found : ideal.exceeds clock with | mk exceeded next => ?_
    cases asked : real.shouldHalt clock with | mk halt left => ?_
    obtain ⟨left, clock'⟩ := left
    rw [found, asked] at answer readings first
    cases answer
    cases readings
    simp only [PolicyEnforcer.anyShouldHalt, anyExceeds, found, asked]
    cases exceeded with
    | true => exact ⟨rfl, rfl, first.precedes, .cons first.agrees (first.others runs agree)⟩
    | false =>
      obtain ⟨answer, readings, rest⟩ := (first.others runs agree).anyShouldHalt (first.precedes.runs runs)
      exact ⟨answer, readings, .cons runs first rest⟩

end

mutual

/-- What `reason` looks for is there: at every `ofAny` it goes down through, one of the enforcers is still
exceeded when its turn to be asked again comes, and the first of these is explained in its turn. -/
inductive Explained : PolicyEnforcer → Clock → Prop
  | windowed {enforcer clock} : Explained (.windowed enforcer) clock
  | total {enforcer clock} : Explained (.total enforcer) clock
  | any {enforcers clock} (first : FirstExplained enforcers clock) : Explained (.any enforcers) clock

inductive FirstExplained : List PolicyEnforcer → Clock → Prop
  | found {enforcer rest clock} (exceeded : (enforcer.exceeds clock).1 = true)
    (explained : Explained enforcer (enforcer.exceeds clock).2) : FirstExplained (enforcer :: rest) clock
  | passed {enforcer rest clock} (within : (enforcer.exceeds clock).1 = false)
    (later : FirstExplained rest (enforcer.exceeds clock).2) : FirstExplained (enforcer :: rest) clock

end

mutual

/-- `reason` returns a message exactly when what it looks for is there. -/
theorem Agrees.reason : ∀ {ideal real : PolicyEnforcer} {clock : Clock}, clock.Runs →
    Agrees clock.head ideal real →
    ((∃ message, (real.reason clock).1 = .ok message) ↔ Explained ideal clock) ∧
      Kept clock (real.reason clock).2.2 ideal (real.reason clock).2.1
  | .windowed _, .windowed real, clock, runs, agrees => by
    rw [PolicyEnforcer.reason]
    exact ⟨⟨fun _ => .windowed, fun _ => ⟨_, rfl⟩⟩, .refl clock, agrees⟩
  | .total _, .total _, clock, runs, agrees => by
    rw [PolicyEnforcer.reason]
    exact ⟨⟨fun _ => .total, fun _ => ⟨_, rfl⟩⟩, .refl clock, agrees⟩
  | .any ideals, .any reals, clock, runs, .any agree => by
    obtain ⟨returns, kept⟩ := agree.firstReason runs
    rw [PolicyEnforcer.reason]
    refine ⟨⟨fun message => .any (returns.mp message), ?_⟩, kept.precedes, .any kept.agree⟩
    intro explained
    cases explained with
    | any first => exact returns.mpr first

private theorem AgreeAll.firstReason : ∀ {ideals reals : List PolicyEnforcer} {clock : Clock}, clock.Runs →
    AgreeAll clock.head ideals reals →
    ((∃ message, (PolicyEnforcer.firstReason reals clock).1 = .ok message) ↔ FirstExplained ideals clock) ∧
      KeptAll clock (PolicyEnforcer.firstReason reals clock).2.2 ideals
        (PolicyEnforcer.firstReason reals clock).2.1
  | [], [], clock, runs, .nil => by
    rw [PolicyEnforcer.firstReason]
    refine ⟨⟨?_, ?_⟩, .refl clock, .nil⟩
    · rintro ⟨_, thrown⟩
      contradiction
    · rintro ⟨⟩
  | ideal :: ideals, real :: reals, clock, runs, .cons agrees agree => by
    obtain ⟨answer, readings, first⟩ := agrees.shouldHalt runs
    cases asked : real.shouldHalt clock with | mk halt left => ?_
    obtain ⟨left, next⟩ := left
    rw [asked] at answer readings first
    cases halt with
    | true =>
      rw [← readings] at first
      obtain ⟨returns, kept⟩ := first.agrees.reason (first.precedes.runs runs)
      have whole := first.precedes.trans kept.precedes
      rw [PolicyEnforcer.firstReason, asked]
      refine ⟨⟨?_, ?_⟩, whole, .cons kept.agrees (agree.mono (whole.head_le runs))⟩
      · intro message
        exact .found answer.symm (readings ▸ returns.mp message)
      · intro explained
        cases explained with
        | found _ explained => exact returns.mpr (readings ▸ explained)
        | passed within =>
          rw [within] at answer
          contradiction
    | false =>
      rw [← readings] at first
      obtain ⟨returns, rest⟩ := (first.others runs agree).firstReason (first.precedes.runs runs)
      rw [PolicyEnforcer.firstReason, asked]
      refine ⟨⟨?_, ?_⟩, .cons runs first rest⟩
      · intro message
        exact .passed answer.symm (readings ▸ returns.mp message)
      · intro explained
        cases explained with
        | found exceeded =>
          rw [exceeded] at answer
          contradiction
        | passed _ later => exact returns.mpr (readings ▸ later)

end

/-- The ideal enforcer only takes note of failures. -/
def remember (ideal : PolicyEnforcer) (clock : Clock) : CheckerCall → PolicyEnforcer
  | .markFailure => (ideal.markFailure clock).1
  | .shouldHalt | .reason => ideal

/-- Every call comes back, and keeps the two enforcers together. -/
theorem Agrees.step {ideal real : PolicyEnforcer} {clock : Clock} (agrees : Agrees clock.head ideal real)
    (runs : clock.Runs) {call : CheckerCall} (few : call = .markFailure → ideal.held + 1 < 2 ^ 32) :
    ∃ next after, call.step (real, clock) = some (next, after) ∧
      Kept clock after (ideal.remember clock call) next := by
  cases call with
  | markFailure =>
    obtain ⟨same, kept⟩ := agrees.markFailure runs (few rfl)
    exact ⟨_, _, rfl, precedes_markFailure real clock, same ▸ kept⟩
  | shouldHalt =>
    obtain ⟨-, readings, kept⟩ := agrees.shouldHalt runs
    exact ⟨_, _, rfl, readings ▸ kept⟩
  | reason => exact ⟨_, _, rfl, (agrees.reason runs).2⟩

/-- After any calls the clock still runs forward. -/
theorem runs_of_run {before after : PolicyEnforcer × Clock} {history : List CheckerCall}
    (runs : before.2.Runs) (ran : run CheckerCall.step before history = some after) : after.2.Runs := by
  refine run_invariant (motive := fun state => state.2.Runs) ?_ runs ran
  rintro ⟨enforcer, clock⟩ call target forward stepped
  cases call with
  | markFailure =>
    cases stepped
    exact (precedes_markFailure enforcer clock).runs forward
  | shouldHalt =>
    cases stepped
    obtain ⟨-, readings, kept⟩ := (Agrees.refl enforcer).shouldHalt forward
    exact (readings ▸ kept.precedes).runs forward
  | reason =>
    cases stepped
    exact ((Agrees.refl enforcer).reason forward).2.precedes.runs forward

end PolicyEnforcer

end RabbitJobQueue.Model
