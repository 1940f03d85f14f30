import RabbitJobQueue.Proofs.PolicyEnforcers

/-! # Failure policies mean what they say

A policy is violated when one of its limits is: more failures than allowed in all, or inside the window
that ends now. The enforcers a policy makes answer just that, whatever they have been asked before and
however the policy is nested.
-/

namespace RabbitJobQueue.Soundness.FailurePolicies

open Machine Model Model.PolicyEnforcer

/-- A limit that a policy sets somewhere in its nesting. -/
inductive FailureLimit
  | within (max : Int32) (window : ℤ)
  | total (max : Int32)
deriving DecidableEq, Repr

namespace FailureLimit

def max : FailureLimit → Int32
  | .within max _ | .total max => max

/-- The failures that count against the limit now. -/
def counted (failures : List ℤ) (now : ℤ) : FailureLimit → List ℤ
  | .within _ window => failures.filter fun time => decide (now - window ≤ time)
  | .total _ => failures

def Violated (failures : List ℤ) (now : ℤ) (limit : FailureLimit) : Prop :=
  limit.max.toInt < (limit.counted failures now).length

instance {failures : List ℤ} {now : ℤ} {limit : FailureLimit} : Decidable (limit.Violated failures now) :=
  inferInstanceAs (Decidable (_ < _))

end FailureLimit

mutual

def limits : ExecutorFailurePolicy → List FailureLimit
  | .maxFailuresWithin max within => [.within max within.inWholeMilliseconds]
  | .maxTotalFailures max => [.total max]
  | .ofAny others => limitsOfAll others

def limitsOfAll : List ExecutorFailurePolicy → List FailureLimit
  | [] => []
  | policy :: rest => limits policy ++ limitsOfAll rest

end

/-- Some limit of the policy is violated by the failures so far. -/
def Violated (policy : ExecutorFailurePolicy) (failures : List ℤ) (now : ℤ) : Prop :=
  ∃ limit ∈ limits policy, limit.Violated failures now

instance {policy : ExecutorFailurePolicy} {failures : List ℤ} {now : ℤ} :
    Decidable (Violated policy failures now) := inferInstanceAs (Decidable (∃ _ ∈ _, _))

/-- What `shouldHalt` answers now, after the calls of a history. -/
def answer (policy : ExecutorFailurePolicy) (history : List TimedCall) (now : ℤ) :
    Option (Except Throwable Bool) :=
  (run TimedCall.step policy.newEnforcer history).bind fun enforcer => TimedCall.haltsAt enforcer now

/-- The enforcer after it has been told of failures at these times. -/
def told (enforcer : PolicyEnforcer) (failures : List ℤ) : PolicyEnforcer :=
  failures.foldl (fun enforcer time => (enforcer.markFailure (Stream'.const time)).1) enforcer

mutual

private theorem markFailure_const (time : ℤ) : ∀ enforcer : PolicyEnforcer,
    (enforcer.markFailure (Stream'.const time)).2 = Stream'.const time
  | .windowed _ => rfl
  | .total _ => rfl
  | .any enforcers => by
    rw [PolicyEnforcer.markFailure, forEachMarkFailure_const time enforcers]

private theorem forEachMarkFailure_const (time : ℤ) : ∀ enforcers : List PolicyEnforcer,
    PolicyEnforcer.forEachMarkFailure enforcers (Stream'.const time) =
      (enforcers.map fun enforcer => (enforcer.markFailure (Stream'.const time)).1, Stream'.const time)
  | [] => rfl
  | enforcer :: rest => by
    rw [PolicyEnforcer.forEachMarkFailure]
    simp only [markFailure_const time enforcer, forEachMarkFailure_const time rest, List.map_cons]

end

private theorem told_windowed (enforcer : WindowedFailureEnforcer) (failures : List ℤ) :
    told (.windowed enforcer) failures = .windowed { enforcer with
      counter := { enforcer.counter with entries := enforcer.counter.entries ++ failures } } := by
  induction failures generalizing enforcer with
  | nil => simp [told]
  | cons time rest ih =>
    have next := ih (enforcer.markFailure (Stream'.const time)).1
    rw [told, List.foldl_cons]
    apply next.trans
    simp only [WindowedFailureEnforcer.markFailure, ScrollingCounter.inc, List.append_assoc]
    rfl

private theorem told_total (enforcer : MaxFailureEnforcer) (failures : List ℤ) :
    told (.total enforcer) failures = .total { enforcer with
      failureCount := enforcer.failureCount + UInt32.ofNat failures.length } := by
  induction failures generalizing enforcer with
  | nil => simp [told]
  | cons time rest ih =>
    rw [told, List.foldl_cons]
    apply (ih enforcer.marked).trans
    simp only [MaxFailureEnforcer.marked, List.length_cons, UInt32.ofNat_add, PolicyEnforcer.total.injEq,
      MaxFailureEnforcer.mk.injEq, true_and]
    rw [UInt32.add_assoc, UInt32.add_comm 1]
    rfl

private theorem told_any (enforcers : List PolicyEnforcer) (failures : List ℤ) :
    told (.any enforcers) failures = .any (enforcers.map fun enforcer => told enforcer failures) := by
  induction failures generalizing enforcers with
  | nil => simp [told]
  | cons time rest ih =>
    rw [told, List.foldl_cons, PolicyEnforcer.markFailure, forEachMarkFailure_const]
    apply (ih _).trans
    rw [List.map_map]
    rfl

/-- What `toUInt` makes of a signed number: the negative ones come behind the others. -/
theorem toInt_eq_toUInt32 (limit : Int32) : limit.toInt = if 2 * limit.toUInt32.toNat < 2 ^ 32
    then (limit.toUInt32.toNat : ℤ) else limit.toUInt32.toNat - 2 ^ 32 := BitVec.toInt_eq_toNat_cond _

/-- The comparison of two `UInt`s is one of numbers, as long as neither has wrapped. -/
theorem lt_ofNat_iff {max : Int32} {count : ℕ} (nonnegative : 0 ≤ max.toInt) (few : count < 2 ^ 31) :
    max.toUInt32 < UInt32.ofNat count ↔ max.toInt < count := by
  have signed := toInt_eq_toUInt32 max
  have bounded : max.toUInt32.toNat < 2 ^ 32 := max.toUInt32.toNat_lt
  have small : count < UInt32.size := few.trans (by decide)
  rw [UInt32.lt_iff_toNat_lt, UInt32.toNat_ofNat_of_lt' small]
  split at signed <;> omega

variable {failures : List ℤ} {now : ℤ}

/-- As few failures, in the order of time, are counted as the policy says. -/
theorem told_windowed_exceededAt (ordered : failures.Pairwise (· ≤ ·)) (few : failures.length < 2 ^ 31)
    {max : Int32} (nonnegative : 0 ≤ max.toInt) (within : SignedDuration) :
    (told (.windowed { maxFailures := max.toUInt32, within }) failures).exceeds (Stream'.const now) =
      (decide ((FailureLimit.within max within.inWholeMilliseconds).Violated failures now),
        Stream'.const now) := by
  have pruned : prune ScrollingCounter.isNotEmpty (now - within.inWholeMilliseconds) failures =
      failures.filter fun time => decide (now - within.inWholeMilliseconds ≤ time) :=
    (ScrollingCounter.prune_of_few (by omega) _).trans (dropWhile_lt_eq_filter ordered _)
  rw [told_windowed, exceeds, WindowedFailureEnforcer.exceededAt]
  refine Prod.ext ?_ rfl
  rw [decide_eq_decide]
  change max.toUInt32 < UInt32.ofNat (prune _ (now - within.inWholeMilliseconds) failures).length ↔ _
  rw [pruned]
  apply lt_ofNat_iff nonnegative
  exact lt_of_le_of_lt (List.length_filter_le ..) few

private theorem told_total_exceeded (few : failures.length < 2 ^ 31) {max : Int32}
    (nonnegative : 0 ≤ max.toInt) :
    (told (.total (maxTotalFailures max)) failures).exceeds (Stream'.const now) =
      (decide ((FailureLimit.total max).Violated failures now), Stream'.const now) := by
  rw [told_total, exceeds, MaxFailureEnforcer.exceeded]
  refine Prod.ext ?_ rfl
  rw [decide_eq_decide]
  simp only [maxTotalFailures, UInt32.zero_add]
  exact lt_ofNat_iff nonnegative few

mutual

/-- The ideal enforcer of a policy exceeds its limits exactly when the policy is violated. -/
theorem exceeds_told (ordered : failures.Pairwise (· ≤ ·)) (few : failures.length < 2 ^ 31) :
    ∀ policy : ExecutorFailurePolicy,
    (∀ limit ∈ limits policy, 0 ≤ limit.max.toInt) →
    (told policy.newEnforcer failures).exceeds (Stream'.const now) =
      (decide (Violated policy failures now), Stream'.const now)
  | .maxFailuresWithin max within, nonnegative => by
    have bound : 0 ≤ max.toInt := nonnegative (.within max _) (List.mem_singleton_self _)
    apply (told_windowed_exceededAt ordered few bound within).trans
    simp [Violated, limits]
  | .maxTotalFailures max, nonnegative => by
    have bound : 0 ≤ max.toInt := nonnegative (.total max) (List.mem_singleton_self _)
    apply (told_total_exceeded few bound).trans
    simp [Violated, limits]
  | .ofAny others, nonnegative => by
    rw [ExecutorFailurePolicy.newEnforcer, told_any, exceeds]
    exact anyExceeds_told ordered few others nonnegative

private theorem anyExceeds_told (ordered : failures.Pairwise (· ≤ ·)) (few : failures.length < 2 ^ 31) :
    ∀ policies : List ExecutorFailurePolicy, (∀ limit ∈ limitsOfAll policies, 0 ≤ limit.max.toInt) →
    anyExceeds ((ExecutorFailurePolicy.newEnforcers policies).map fun enforcer => told enforcer failures)
      (Stream'.const now) =
      (decide (∃ limit ∈ limitsOfAll policies, limit.Violated failures now), Stream'.const now)
  | [], _ => rfl
  | policy :: rest, nonnegative => by
    have first := exceeds_told ordered few policy fun limit member =>
      nonnegative limit (List.mem_append_left _ member)
    have others := anyExceeds_told ordered few rest fun limit member =>
      nonnegative limit (List.mem_append_right _ member)
    rw [ExecutorFailurePolicy.newEnforcers, List.map_cons, anyExceeds, first]
    by_cases violated : Violated policy failures now
    · obtain ⟨limit, member, exceeded⟩ := violated
      have whole : ∃ limit ∈ limitsOfAll (policy :: rest), limit.Violated failures now :=
        ⟨limit, List.mem_append_left _ member, exceeded⟩
      have here : decide (Violated policy failures now) = true := decide_eq_true ⟨limit, member, exceeded⟩
      rw [here, decide_eq_true whole]
    · rw [decide_eq_false violated]
      apply others.trans
      have same : (∃ limit ∈ limitsOfAll (policy :: rest), limit.Violated failures now) ↔
          ∃ limit ∈ limitsOfAll rest, limit.Violated failures now := by
        constructor
        · rintro ⟨limit, member, exceeded⟩
          rcases List.mem_append.mp member with here | there
          · exact absurd ⟨limit, here, exceeded⟩ violated
          · exact ⟨limit, there, exceeded⟩
        · rintro ⟨limit, member, exceeded⟩
          exact ⟨limit, List.mem_append_right _ member, exceeded⟩
      rw [decide_eq_decide.mpr same]

end

theorem failures_cons (event : TimedCall) (rest : List TimedCall) :
    TimedCall.failures (event :: rest) = TimedCall.failures [event] ++ TimedCall.failures rest := by
  rw [TimedCall.failures, ← List.singleton_append, List.filter_append, List.map_append]
  rfl

private theorem held_told (enforcer : PolicyEnforcer) (failures : List ℤ) :
    (told enforcer failures).held ≤ enforcer.held + failures.length := by
  induction failures generalizing enforcer with
  | nil => exact Nat.le_refl _
  | cons time rest ih =>
    have first := held_markFailure enforcer (Stream'.const time)
    have others := ih (enforcer.markFailure (Stream'.const time)).1
    rw [told, List.foldl_cons, List.length_cons]
    change (told _ rest).held ≤ _
    omega

mutual

private theorem held_newEnforcer : ∀ policy : ExecutorFailurePolicy, policy.newEnforcer.held = 0
  | .maxFailuresWithin _ _ => rfl
  | .maxTotalFailures _ => rfl
  | .ofAny others => heldByAny_newEnforcers others

private theorem heldByAny_newEnforcers : ∀ policies : List ExecutorFailurePolicy,
    heldByAny (ExecutorFailurePolicy.newEnforcers policies) = 0
  | [] => rfl
  | policy :: rest => by
    rw [ExecutorFailurePolicy.newEnforcers, heldByAny, held_newEnforcer policy, heldByAny_newEnforcers rest,
      Nat.max_self]

end

/-- A call at a time keeps the real enforcer together with the ideal one. -/
theorem step_agrees {ideal real : PolicyEnforcer} {bound : ℤ} (agrees : Agrees bound ideal real)
    {event : TimedCall} (later : bound ≤ event.time)
    (few : ideal.held + (TimedCall.failures [event]).length < 2 ^ 32) :
    ∃ next, TimedCall.step real event = some next ∧
      Agrees event.time (told ideal (TimedCall.failures [event])) next := by
  obtain ⟨call, time⟩ := event
  have forward : Agrees (Stream'.const time).head ideal real := agrees.mono later
  have room : call = .markFailure → ideal.held + 1 < 2 ^ 32 := by
    rintro rfl
    exact few
  obtain ⟨next, after, ran, kept⟩ := forward.step (Clock.runs_const time) room
  refine ⟨next, by rw [TimedCall.step, ran]; rfl, ?_⟩
  have agreed := kept.agrees
  rw [kept.precedes.of_const] at agreed
  cases call <;> exact agreed

private theorem run_agrees {ideal real : PolicyEnforcer} {bound now : ℤ} {history : List TimedCall}
    (agrees : Agrees bound ideal real)
    (chronological : (bound :: history.map (·.time) ++ [now]).Pairwise (· ≤ ·))
    (few : ideal.held + (TimedCall.failures history).length < 2 ^ 32) :
    ∃ enforcer, run TimedCall.step real history = some enforcer ∧
      Agrees now (told ideal (TimedCall.failures history)) enforcer := by
  induction history generalizing ideal real bound with
  | nil =>
    refine ⟨real, rfl, agrees.mono ?_⟩
    simpa using chronological
  | cons event rest ih =>
    have ⟨earliest, ordered⟩ := List.pairwise_cons.mp chronological
    rw [failures_cons, List.length_append] at few
    have grown := held_told ideal (TimedCall.failures [event])
    obtain ⟨next, stepped, kept⟩ := step_agrees agrees (earliest event.time (by simp)) (by omega)
    obtain ⟨enforcer, ran, agreed⟩ := ih kept ordered (by omega)
    refine ⟨enforcer, run_cons_eq_some.mpr ⟨next, stepped, ran⟩, ?_⟩
    rw [failures_cons, told, List.foldl_append]
    exact agreed

/-- After any calls, in any order, `shouldHalt` answers whether the policy is violated by all the failures
marked; leaving out any of the earlier calls that mark none changes nothing. -/
theorem shouldHalt_iff_violated (policy : ExecutorFailurePolicy)
    (nonnegative : ∀ limit ∈ limits policy, 0 ≤ limit.max.toInt) (history : List TimedCall) (now : ℤ)
    (chronological : (history.map (·.time) ++ [now]).Pairwise (· ≤ ·))
    (few : (TimedCall.failures history).length < 2 ^ 31) :
    answer policy history now =
        some (.ok (decide (Violated policy (TimedCall.failures history) now))) ∧
      ∀ sparse, sparse.Sublist history → TimedCall.failures sparse = TimedCall.failures history →
        answer policy sparse now = answer policy history now := by
  have answered (calls : List TimedCall) (ordered : (calls.map (·.time) ++ [now]).Pairwise (· ≤ ·))
      (same : TimedCall.failures calls = TimedCall.failures history) :
      answer policy calls now = some (.ok (decide (Violated policy (TimedCall.failures history) now))) := by
    -- a new enforcer agrees with itself at any time, so also at one before the first call
    obtain ⟨bound, first⟩ : ∃ bound, (bound :: (calls.map (·.time) ++ [now])).Pairwise (· ≤ ·) := by
      cases times : calls.map (·.time) ++ [now] with
      | nil => exact ⟨0, by simp⟩
      | cons earliest rest =>
        rw [times] at ordered
        refine ⟨earliest, List.pairwise_cons.mpr ⟨?_, ordered⟩⟩
        intro time member
        rcases List.mem_cons.mp member with rfl | member
        · exact le_refl _
        · exact (List.pairwise_cons.mp ordered).1 time member
    have room : policy.newEnforcer.held + (TimedCall.failures calls).length < 2 ^ 32 := by
      rw [held_newEnforcer, same]
      omega
    obtain ⟨enforcer, ran, agrees⟩ := run_agrees (Agrees.refl policy.newEnforcer) first room
    have agreed : Agrees (Stream'.const now).head (told policy.newEnforcer (TimedCall.failures calls)) enforcer :=
      agrees
    have halts := (agreed.shouldHalt (Clock.runs_const now)).1
    have inOrder : (TimedCall.failures history).Pairwise (· ≤ ·) :=
      List.Pairwise.sublist (List.filter_sublist.map _) (List.pairwise_append.mp chronological).1
    rw [same, exceeds_told inOrder few policy nonnegative] at halts
    rw [answer, ran, Option.bind_some]
    exact congrArg (fun halt => some (Except.ok halt)) halts
  refine ⟨answered history chronological rfl, ?_⟩
  intro sparse sublist same
  rw [answered history chronological rfl]
  exact answered sparse (chronological.sublist ((sublist.map _).append_right _)) same

/-- A window inside two others, asked twice on the way. -/
theorem shouldHalt_iff_violated_nested :
    answer (.ofAny [.ofAny [], .ofAny [.maxFailuresWithin 1 ⟨2000000000⟩, .maxTotalFailures 5]])
        [⟨.markFailure, 0⟩, ⟨.shouldHalt, 500⟩, ⟨.markFailure, 1500⟩, ⟨.shouldHalt, 1500⟩] 2000 =
      some (.ok true) :=
  (shouldHalt_iff_violated
    (.ofAny [.ofAny [], .ofAny [.maxFailuresWithin 1 ⟨2000000000⟩, .maxTotalFailures 5]])
    (by decide) [⟨.markFailure, 0⟩, ⟨.shouldHalt, 500⟩, ⟨.markFailure, 1500⟩, ⟨.shouldHalt, 1500⟩] 2000
    (by decide) (by decide)).1

end RabbitJobQueue.Soundness.FailurePolicies
