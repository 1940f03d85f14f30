import RabbitJobQueue.Proofs.PolicyEnforcers

/-! # Nesting ofAny

`ofAny` of policies that are themselves made by `ofAny` is `ofAny` of all the policies at the bottom: the
enforcers answer every `shouldHalt` alike, whatever the clock does between the readings, and take the same
readings from it. Only `reason` asks more often the deeper it goes; as long as the clock stands still it
comes to the same message.
-/

namespace RabbitJobQueue.Soundness.NestedPolicies

open Machine Model Model.PolicyEnforcer

mutual

/-- The policies a policy is made of at the bottom. -/
def policies : ExecutorFailurePolicy → List ExecutorFailurePolicy
  | .maxFailuresWithin max within => [.maxFailuresWithin max within]
  | .maxTotalFailures max => [.maxTotalFailures max]
  | .ofAny others => allPolicies others

def allPolicies : List ExecutorFailurePolicy → List ExecutorFailurePolicy
  | [] => []
  | policy :: rest => policies policy ++ allPolicies rest

end

mutual

/-- The enforcers at the bottom of an enforcer. -/
def leaves : PolicyEnforcer → List PolicyEnforcer
  | .windowed enforcer => [.windowed enforcer]
  | .total enforcer => [.total enforcer]
  | .any enforcers => allLeaves enforcers

def allLeaves : List PolicyEnforcer → List PolicyEnforcer
  | [] => []
  | enforcer :: rest => leaves enforcer ++ allLeaves rest

end

/-- The same enforcers, all at one level. -/
def flat (enforcer : PolicyEnforcer) : PolicyEnforcer := .any (leaves enforcer)

private theorem newEnforcers_append (first second : List ExecutorFailurePolicy) :
    ExecutorFailurePolicy.newEnforcers (first ++ second) =
      ExecutorFailurePolicy.newEnforcers first ++ ExecutorFailurePolicy.newEnforcers second := by
  induction first with
  | nil => rfl
  | cons policy rest ih =>
    rw [List.cons_append, ExecutorFailurePolicy.newEnforcers, ExecutorFailurePolicy.newEnforcers, ih,
      List.cons_append]

mutual

/-- The enforcer of the flat policy is the flat enforcer. -/
private theorem leaves_newEnforcer : ∀ policy : ExecutorFailurePolicy,
    leaves policy.newEnforcer = ExecutorFailurePolicy.newEnforcers (policies policy)
  | .maxFailuresWithin _ _ => rfl
  | .maxTotalFailures _ => rfl
  | .ofAny others => allLeaves_newEnforcers others

private theorem allLeaves_newEnforcers : ∀ others : List ExecutorFailurePolicy,
    allLeaves (ExecutorFailurePolicy.newEnforcers others) =
      ExecutorFailurePolicy.newEnforcers (allPolicies others)
  | [] => rfl
  | policy :: rest => by
    rw [ExecutorFailurePolicy.newEnforcers, allLeaves, leaves_newEnforcer policy,
      allLeaves_newEnforcers rest, allPolicies, newEnforcers_append]

end

private theorem forEachMarkFailure_append (first second : List PolicyEnforcer) (clock : Clock) :
    forEachMarkFailure (first ++ second) clock =
      ((forEachMarkFailure first clock).1 ++
        (forEachMarkFailure second (forEachMarkFailure first clock).2).1,
      (forEachMarkFailure second (forEachMarkFailure first clock).2).2) := by
  induction first generalizing clock with
  | nil => rfl
  | cons enforcer rest ih =>
    simp only [List.cons_append, forEachMarkFailure]
    rw [ih]

mutual

/-- A failure is marked at the bottom, with one reading for every window in order. -/
theorem forEachMarkFailure_leaves : ∀ (enforcer : PolicyEnforcer) (clock : Clock),
    forEachMarkFailure (leaves enforcer) clock =
      (leaves (enforcer.markFailure clock).1, (enforcer.markFailure clock).2)
  | .windowed _, _ => rfl
  | .total _, _ => rfl
  | .any enforcers, clock => forEachMarkFailure_allLeaves enforcers clock

private theorem forEachMarkFailure_allLeaves : ∀ (enforcers : List PolicyEnforcer) (clock : Clock),
    forEachMarkFailure (allLeaves enforcers) clock =
      (allLeaves (forEachMarkFailure enforcers clock).1, (forEachMarkFailure enforcers clock).2)
  | [], _ => rfl
  | enforcer :: rest, clock => by
    rw [allLeaves, forEachMarkFailure_append, forEachMarkFailure_leaves enforcer clock,
      forEachMarkFailure_allLeaves rest]
    rfl

end

private theorem markFailure_flat (enforcer : PolicyEnforcer) (clock : Clock) :
    (flat enforcer).markFailure clock =
      (flat (enforcer.markFailure clock).1, (enforcer.markFailure clock).2) := by
  rw [flat, PolicyEnforcer.markFailure, forEachMarkFailure_leaves]
  rfl

/-- What asking the first enforcers leaves to ask of the others. -/
theorem anyShouldHalt_append (first second : List PolicyEnforcer) (clock : Clock) :
    anyShouldHalt (first ++ second) clock =
      match anyShouldHalt first clock with
      | (true, asked, left) => (true, asked ++ second, left)
      | (false, asked, left) =>
        ((anyShouldHalt second left).1, asked ++ (anyShouldHalt second left).2.1,
          (anyShouldHalt second left).2.2) := by
  induction first generalizing clock with
  | nil => rfl
  | cons enforcer rest ih =>
    simp only [List.cons_append, anyShouldHalt]
    rcases enforcer.shouldHalt clock with ⟨_ | _, asked, left⟩
    · dsimp only
      rw [ih]
      rcases anyShouldHalt rest left with ⟨_ | _, others, last⟩ <;> rfl
    · rfl

mutual

private theorem anyShouldHalt_leaves : ∀ (enforcer : PolicyEnforcer) (clock : Clock),
    anyShouldHalt (leaves enforcer) clock = ((enforcer.shouldHalt clock).1,
      leaves (enforcer.shouldHalt clock).2.1, (enforcer.shouldHalt clock).2.2)
  | .windowed enforcer, clock => by
    simp only [leaves, anyShouldHalt, shouldHalt]
    rcases enforcer.shouldHalt clock with ⟨_ | _, asked, left⟩ <;> rfl
  | .total enforcer, clock => by
    simp only [leaves, anyShouldHalt, shouldHalt]
    cases enforcer.exceeded <;> rfl
  | .any enforcers, clock => anyShouldHalt_allLeaves enforcers clock

private theorem anyShouldHalt_allLeaves : ∀ (enforcers : List PolicyEnforcer) (clock : Clock),
    anyShouldHalt (allLeaves enforcers) clock = ((anyShouldHalt enforcers clock).1,
      allLeaves (anyShouldHalt enforcers clock).2.1, (anyShouldHalt enforcers clock).2.2)
  | [], _ => rfl
  | enforcer :: rest, clock => by
    rw [allLeaves, anyShouldHalt_append, anyShouldHalt_leaves enforcer clock]
    simp only [anyShouldHalt]
    rcases enforcer.shouldHalt clock with ⟨_ | _, asked, left⟩
    · dsimp only
      rw [anyShouldHalt_allLeaves rest left]
      rfl
    · rfl

end

/-- The flat enforcer gives the same answer, at the same readings. -/
theorem shouldHalt_flat (enforcer : PolicyEnforcer) (clock : Clock) :
    (flat enforcer).shouldHalt clock = ((enforcer.shouldHalt clock).1,
      flat (enforcer.shouldHalt clock).2.1, (enforcer.shouldHalt clock).2.2) := by
  rw [flat, shouldHalt, anyShouldHalt_leaves]
  rfl

variable {now : ℤ}

/-- Asking once more at the same time drops no further failure and gives the same answer. -/
theorem windowed_asked_again (now : ℤ) (enforcer : WindowedFailureEnforcer) : ∃ halt asked,
    enforcer.shouldHalt (Stream'.const now) = (halt, asked, Stream'.const now) ∧
      asked.shouldHalt (Stream'.const now) = (halt, asked, Stream'.const now) := by
  refine ⟨_, _, rfl, ?_⟩
  simp only [WindowedFailureEnforcer.shouldHalt, ScrollingCounter.compareTo, ScrollingCounter.count,
    prune_prune (le_refl _)]
  rfl

mutual

private theorem asked_again (now : ℤ) : ∀ enforcer : PolicyEnforcer, ∃ halt asked,
    enforcer.shouldHalt (Stream'.const now) = (halt, asked, Stream'.const now) ∧
      asked.shouldHalt (Stream'.const now) = (halt, asked, Stream'.const now)
  | .windowed enforcer => by
    obtain ⟨halt, asked, first, second⟩ := windowed_asked_again now enforcer
    exact ⟨halt, .windowed asked, by rw [shouldHalt, first], by rw [shouldHalt, second]⟩
  | .total enforcer => ⟨_, _, rfl, rfl⟩
  | .any enforcers => by
    obtain ⟨halt, asked, first, second⟩ := any_asked_again now enforcers
    exact ⟨halt, .any asked, by rw [shouldHalt, first], by rw [shouldHalt, second]⟩

private theorem any_asked_again (now : ℤ) : ∀ enforcers : List PolicyEnforcer, ∃ halt asked,
    anyShouldHalt enforcers (Stream'.const now) = (halt, asked, Stream'.const now) ∧
      anyShouldHalt asked (Stream'.const now) = (halt, asked, Stream'.const now)
  | [] => ⟨_, _, rfl, rfl⟩
  | enforcer :: rest => by
    obtain ⟨halt, asked, first, second⟩ := asked_again now enforcer
    cases halt with
    | true => exact ⟨true, asked :: rest, by rw [anyShouldHalt, first], by rw [anyShouldHalt, second]⟩
    | false =>
      obtain ⟨others, left, firsts, seconds⟩ := any_asked_again now rest
      refine ⟨others, asked :: left, ?_, ?_⟩
      · simp only [anyShouldHalt, first, firsts]
      · simp only [anyShouldHalt, second, seconds]

end

/-- What `reason` looks for among the first enforcers and what it leaves for the others. -/
theorem firstReason_append (first second : List PolicyEnforcer) (clock : Clock) :
    (firstReason (first ++ second) clock).1 = if (anyShouldHalt first clock).1
      then (firstReason first clock).1 else (firstReason second (anyShouldHalt first clock).2.2).1 := by
  induction first generalizing clock with
  | nil => rfl
  | cons enforcer rest ih =>
    rw [List.cons_append, firstReason, firstReason, anyShouldHalt]
    rcases enforcer.shouldHalt clock with ⟨_ | _, asked, left⟩
    · exact ih left
    · rfl

mutual

/-- An enforcer that has just been asked is left as it is by asking it for the reason, and names the one
that the first halting enforcer at the bottom gives. -/
private theorem reason_of_asked : ∀ {enforcer : PolicyEnforcer} {halt : Bool},
    enforcer.shouldHalt (Stream'.const now) = (halt, enforcer, Stream'.const now) →
    (reason enforcer (Stream'.const now)).2 = (enforcer, Stream'.const now) ∧
      (halt = true → (firstReason (leaves enforcer) (Stream'.const now)).1 =
        (reason enforcer (Stream'.const now)).1)
  | .windowed enforcer, halt, asked => by
    refine ⟨by rw [reason], ?_⟩
    rintro rfl
    rw [leaves, firstReason, asked]
  | .total enforcer, halt, asked => by
    refine ⟨by rw [reason], ?_⟩
    rintro rfl
    rw [leaves, firstReason, asked]
  | .any enforcers, halt, asked => by
    have each : anyShouldHalt enforcers (Stream'.const now) = (halt, enforcers, Stream'.const now) := by
      simp only [shouldHalt, Prod.mk.injEq, PolicyEnforcer.any.injEq] at asked
      exact Prod.ext asked.1 (Prod.ext asked.2.1 asked.2.2)
    obtain ⟨kept, message⟩ := firstReason_of_asked each
    rw [reason, leaves, message]
    exact ⟨Prod.ext (congrArg (PolicyEnforcer.any ·.1) kept) (congrArg (·.2) kept), fun _ => rfl⟩

private theorem firstReason_of_asked : ∀ {enforcers : List PolicyEnforcer} {halt : Bool},
    anyShouldHalt enforcers (Stream'.const now) = (halt, enforcers, Stream'.const now) →
    (firstReason enforcers (Stream'.const now)).2 = (enforcers, Stream'.const now) ∧
      (firstReason (allLeaves enforcers) (Stream'.const now)).1 = (firstReason enforcers (Stream'.const now)).1
  | [], _, _ => by simp [allLeaves, firstReason]
  | enforcer :: rest, halt, asked => by
    obtain ⟨first, same, once, -⟩ := asked_again now enforcer
    have bottom := anyShouldHalt_leaves enforcer (Stream'.const now)
    rw [allLeaves, firstReason_append, bottom, firstReason, once]
    rw [anyShouldHalt, once] at asked
    cases first with
    | true =>
      -- the enforcers behind it are not asked
      obtain rfl : enforcer = same := by
        simp only [Prod.mk.injEq, List.cons.injEq] at asked
        exact asked.2.1.1.symm
      obtain ⟨kept, message⟩ := reason_of_asked once
      exact ⟨Prod.ext (congrArg (·.1 :: rest) kept) (congrArg (·.2) kept), message rfl⟩
    | false =>
      simp only [Prod.mk.injEq, List.cons.injEq] at asked
      obtain ⟨halted, ⟨here, others⟩, left⟩ := asked
      obtain ⟨kept, message⟩ := firstReason_of_asked (Prod.ext halted (Prod.ext others left))
      rw [here]
      exact ⟨Prod.ext (congrArg (enforcer :: ·.1) kept) (congrArg (·.2) kept), message⟩

end

/-- Looking for a reason starts by asking, so it may as well start from enforcers that have been asked. -/
theorem firstReason_again {enforcers asked : List PolicyEnforcer} {halt : Bool}
    (once : anyShouldHalt enforcers (Stream'.const now) = (halt, asked, Stream'.const now)) :
    firstReason enforcers (Stream'.const now) = firstReason asked (Stream'.const now) := by
  induction enforcers generalizing asked with
  | nil =>
    simp only [anyShouldHalt, Prod.mk.injEq] at once
    rw [← once.2.1]
  | cons enforcer rest ih =>
    obtain ⟨first, same, here, again⟩ := asked_again now enforcer
    rw [anyShouldHalt, here] at once
    cases first with
    | true =>
      obtain rfl : same :: rest = asked := congrArg (·.2.1) once
      rw [firstReason, firstReason, here, again]
    | false =>
      simp only [Prod.mk.injEq] at once
      obtain ⟨halted, rfl, left⟩ := once
      rw [firstReason, firstReason, here, again]
      dsimp only
      rw [ih (Prod.ext halted (Prod.ext rfl left))]

/-- At one reading of the clock the flat enforcer gives the same reason, or throws with it. -/
theorem reason_flat (now : ℤ) (enforcers : List PolicyEnforcer) : ∃ message asked,
    reason (.any enforcers) (Stream'.const now) = (message, .any asked, Stream'.const now) ∧
      reason (flat (.any enforcers)) (Stream'.const now) =
        (message, flat (.any asked), Stream'.const now) := by
  obtain ⟨halt, asked, first, second⟩ := any_asked_again now enforcers
  have bottom (each : List PolicyEnforcer) := anyShouldHalt_allLeaves each (Stream'.const now)
  have once : anyShouldHalt (allLeaves enforcers) (Stream'.const now) =
      (halt, allLeaves asked, Stream'.const now) := by rw [bottom, first]
  have settled : anyShouldHalt (allLeaves asked) (Stream'.const now) =
      (halt, allLeaves asked, Stream'.const now) := by rw [bottom, second]
  obtain ⟨kept, message⟩ := firstReason_of_asked second
  have flatKept := (firstReason_of_asked settled).1
  refine ⟨(firstReason asked (Stream'.const now)).1, asked, ?_, ?_⟩
  · rw [reason, firstReason_again first]
    exact Prod.ext rfl (Prod.ext (congrArg (PolicyEnforcer.any ·.1) kept) (congrArg (·.2) kept))
  · rw [flat, leaves, reason, firstReason_again once]
    exact Prod.ext message (Prod.ext (congrArg (PolicyEnforcer.any ·.1) flatKept) (congrArg (·.2) flatKept))

/-- What `reason` answers at a time. -/
def reasonAt (enforcer : PolicyEnforcer) (now : ℤ) : Except Throwable String :=
  (enforcer.reason (Stream'.const now)).1

/-- A call at one time does the same to both. -/
theorem step_flat (enforcers : List PolicyEnforcer) (event : TimedCall) : ∃ others,
    TimedCall.step (PolicyEnforcer.any enforcers) event = some (.any others) ∧
      TimedCall.step (flat (.any enforcers)) event = some (flat (.any others)) := by
  obtain ⟨call, time⟩ := event
  cases call with
  | markFailure =>
    have same := markFailure_flat (.any enforcers) (Stream'.const time)
    exact ⟨_, rfl, congrArg (fun marked : PolicyEnforcer × Clock => some marked.1) same⟩
  | shouldHalt =>
    have same := shouldHalt_flat (.any enforcers) (Stream'.const time)
    exact ⟨_, rfl, congrArg (fun asked : Bool × PolicyEnforcer × Clock => some asked.2.1) same⟩
  | reason =>
    obtain ⟨message, asked, nested, flattened⟩ := reason_flat time enforcers
    refine ⟨asked, ?_, ?_⟩
    · exact congrArg (fun told : Except Throwable String × PolicyEnforcer × Clock => some told.2.1) nested
    · exact congrArg (fun told : Except Throwable String × PolicyEnforcer × Clock => some told.2.1) flattened

private theorem run_flat (enforcers : List PolicyEnforcer) (history : List TimedCall) : ∃ others,
    run TimedCall.step (PolicyEnforcer.any enforcers) history = some (.any others) ∧
      run TimedCall.step (flat (.any enforcers)) history = some (flat (.any others)) := by
  induction history generalizing enforcers with
  | nil => exact ⟨enforcers, rfl, rfl⟩
  | cons event rest ih =>
    obtain ⟨next, stepped, same⟩ := step_flat enforcers event
    obtain ⟨others, ran, alike⟩ := ih next
    exact ⟨others, run_cons_eq_some.mpr ⟨_, stepped, ran⟩, run_cons_eq_some.mpr ⟨_, same, alike⟩⟩

/-- As long as nobody asks for the reason the clock may move between any two readings. -/
theorem call_flat (enforcer : PolicyEnforcer) (clock : Clock) {call : CheckerCall} (quiet : call ≠ .reason) :
    ∃ next left, call.step (enforcer, clock) = some (next, left) ∧
      call.step (flat enforcer, clock) = some (flat next, left) := by
  cases call with
  | markFailure => exact ⟨_, _, rfl, congrArg some (markFailure_flat enforcer clock)⟩
  | shouldHalt =>
    have same := shouldHalt_flat enforcer clock
    exact ⟨_, _, rfl, congrArg (fun asked : Bool × PolicyEnforcer × Clock => some asked.2) same⟩
  | reason => exact absurd rfl quiet

private theorem calls_flat (enforcer : PolicyEnforcer) (clock : Clock) {history : List CheckerCall}
    (quiet : .reason ∉ history) :
    ∃ next left, run CheckerCall.step (enforcer, clock) history = some (next, left) ∧
      run CheckerCall.step (flat enforcer, clock) history = some (flat next, left) := by
  induction history generalizing enforcer clock with
  | nil => exact ⟨enforcer, clock, rfl, rfl⟩
  | cons call rest ih =>
    rw [List.mem_cons, not_or] at quiet
    obtain ⟨next, left, stepped, same⟩ := call_flat enforcer clock (Ne.symm quiet.1)
    obtain ⟨others, last, ran, alike⟩ := ih next left quiet.2
    exact ⟨others, last, run_cons_eq_some.mpr ⟨_, stepped, ran⟩, run_cons_eq_some.mpr ⟨_, same, alike⟩⟩

/-- For any nesting of `ofAny` and any history of calls, each at its own time, `shouldHalt` and `reason`
answer at every time as they do for the one `ofAny` of all the policies at the bottom. As long as nobody
asks for the reason the clock may even move at every reading: the answers and the readings taken are the
same. -/
theorem nested_as_flat (others : List ExecutorFailurePolicy) :
    (∀ history : List TimedCall, ∃ nested,
      run TimedCall.step (ExecutorFailurePolicy.ofAny others).newEnforcer history = some nested ∧
      run TimedCall.step (ExecutorFailurePolicy.ofAny (allPolicies others)).newEnforcer history =
        some (flat nested) ∧
      ∀ now, TimedCall.haltsAt nested now = TimedCall.haltsAt (flat nested) now ∧
        reasonAt nested now = reasonAt (flat nested) now) ∧
    ∀ (history : List CheckerCall) (clock : Clock), .reason ∉ history → ∃ nested left,
      run CheckerCall.step ((ExecutorFailurePolicy.ofAny others).newEnforcer, clock) history =
        some (nested, left) ∧
      run CheckerCall.step ((ExecutorFailurePolicy.ofAny (allPolicies others)).newEnforcer, clock) history =
        some (flat nested, left) ∧
      ∀ later, ((flat nested).shouldHalt later).1 = (nested.shouldHalt later).1 ∧
        ((flat nested).shouldHalt later).2.2 = (nested.shouldHalt later).2.2 := by
  have made : (ExecutorFailurePolicy.ofAny (allPolicies others)).newEnforcer =
      flat (.any (ExecutorFailurePolicy.newEnforcers others)) :=
    congrArg PolicyEnforcer.any (allLeaves_newEnforcers others).symm
  constructor
  · intro history
    obtain ⟨next, ran, same⟩ := run_flat (ExecutorFailurePolicy.newEnforcers others) history
    refine ⟨PolicyEnforcer.any next, ran, by rw [made, same], fun now => ⟨?_, ?_⟩⟩
    · have halts := shouldHalt_flat (.any next) (Stream'.const now)
      exact congrArg (fun answered => some (Except.ok answered.1)) halts.symm
    · obtain ⟨message, asked, nested, flattened⟩ := reason_flat now next
      rw [reasonAt, reasonAt, nested, flattened]
  · intro history clock quiet
    obtain ⟨next, left, ran, same⟩ := calls_flat _ clock quiet
    refine ⟨next, left, ran, made ▸ same, fun later => ?_⟩
    rw [shouldHalt_flat]
    exact ⟨rfl, rfl⟩

/-- A window two levels down, under a clock that moves at every reading. -/
theorem nested_as_flat_window : ∃ nested left,
    run CheckerCall.step ((ExecutorFailurePolicy.ofAny
        [.maxTotalFailures 5, .ofAny [.ofAny [.maxFailuresWithin 1 ⟨2000000000⟩]]]).newEnforcer,
        Stream'.iterate (· + 700) 0) [.markFailure, .shouldHalt] = some (nested, left) ∧
      run CheckerCall.step ((ExecutorFailurePolicy.ofAny
        [.maxTotalFailures 5, .maxFailuresWithin 1 ⟨2000000000⟩]).newEnforcer,
        Stream'.iterate (· + 700) 0) [.markFailure, .shouldHalt] = some (flat nested, left) ∧
      ∀ later, ((flat nested).shouldHalt later).1 = (nested.shouldHalt later).1 ∧
        ((flat nested).shouldHalt later).2.2 = (nested.shouldHalt later).2.2 :=
  (nested_as_flat [.maxTotalFailures 5, .ofAny [.ofAny [.maxFailuresWithin 1 ⟨2000000000⟩]]]).2
    [.markFailure, .shouldHalt] (Stream'.iterate (· + 700) 0) (by decide)

end RabbitJobQueue.Soundness.NestedPolicies
