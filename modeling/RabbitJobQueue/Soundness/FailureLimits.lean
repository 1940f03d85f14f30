import RabbitJobQueue.Soundness.FailurePolicies
import RabbitJobQueue.Soundness.WindowCount

/-! # Limits and counters as unsigned numbers

The factories turn an `Int` limit into a `UInt`, and failures are counted in a `UInt` that starts again
behind its last value. A negative limit so becomes one of the largest, and an enforcer that has counted far
enough no longer knows that it has. Of the limits themselves an enforcer remembers nothing but this number:
what it compares with it depends on the calls alone.
-/

namespace RabbitJobQueue.Soundness.FailureLimits

open Machine Model FailurePolicies WindowCount.CounterCall

/-- The factories that take a limit. -/
inductive LimitKind
  | total
  | within (window : SignedDuration)
deriving DecidableEq, Repr

def LimitKind.policy : LimitKind → Int32 → ExecutorFailurePolicy
  | .total, max => .maxTotalFailures max
  | .within window, max => .maxFailuresWithin max window

/-- After the calls of a history, `shouldHalt` says halt. -/
def SaysHalt (policy : ExecutorFailurePolicy) (history : List TimedCall) (now : ℤ) : Prop :=
  answer policy history now = some (.ok true)

/-- Whenever the enforcer with the higher limit says halt, the one with the lower limit does. -/
def Monotone (kind : LimitKind) (lower higher : Int32) : Prop :=
  ∀ history now, SaysHalt (kind.policy higher) history now → SaysHalt (kind.policy lower) history now

/-- What has once said halt says so after all further calls of the history. -/
def Latches (max : Int32) (history : List TimedCall) : Prop :=
  ∀ earlier later, earlier <+: later → later <+: history → ∀ before after,
    SaysHalt (.maxTotalFailures max) earlier before → SaysHalt (.maxTotalFailures max) later after

/-- The call on the counter of a window that a call on its enforcer makes. -/
def counterCall (event : TimedCall) : Option WindowCount.CounterCall :=
  match event.call with
  | .markFailure => some (.inc event.time)
  | .shouldHalt => some (.count event.time)
  | .reason => none

/-- The number an enforcer of this kind compares with its limit, whatever the limit is. -/
def tally (history : List TimedCall) (now : ℤ) : LimitKind → UInt32
  | .total => UInt32.ofNat (TimedCall.failures history).length
  | .within window => WindowCount.answer window.inWholeMilliseconds (history.filterMap counterCall) now

private theorem run_windowed (max : UInt32) (within : SignedDuration) (counter : ScrollingCounter)
    (history : List TimedCall) :
    run TimedCall.step (PolicyEnforcer.windowed { maxFailures := max, within, counter }) history =
      some (.windowed {
        maxFailures := max
        within
        counter := (history.filterMap counterCall).foldl perform counter }) := by
  induction history generalizing counter with
  | nil => rfl
  | cons event rest ih =>
    obtain ⟨call, time⟩ := event
    rw [run_cons]
    cases call with
    | markFailure => exact ih _
    | shouldHalt => exact ih _
    | reason =>
      have stepped : TimedCall.step (PolicyEnforcer.windowed { maxFailures := max, within, counter })
          ⟨.reason, time⟩ = some (.windowed { maxFailures := max, within, counter }) := by
        simp only [TimedCall.step, CheckerCall.step, ExecutorFailureEnforcer.reason, Effect.exec_ofExcept,
          PolicyEnforcer.reason, Option.map_some]
      rw [stepped, Option.bind_some]
      exact ih counter

private theorem run_total (enforcer : MaxFailureEnforcer) (history : List TimedCall) :
    run TimedCall.step (PolicyEnforcer.total enforcer) history = some (.total { enforcer with
      failureCount := enforcer.failureCount + UInt32.ofNat (TimedCall.failures history).length }) := by
  induction history generalizing enforcer with
  | nil => simp [TimedCall.failures]
  | cons event rest ih =>
    obtain ⟨call, time⟩ := event
    have stepped : TimedCall.step (PolicyEnforcer.total enforcer) ⟨call, time⟩ = some (.total { enforcer with
        failureCount := enforcer.failureCount +
          UInt32.ofNat (TimedCall.failures [⟨call, time⟩]).length }) := by
      cases call with
      | markFailure => rfl
      | shouldHalt => simp [TimedCall.step, CheckerCall.step, TimedCall.failures,
          ExecutorFailureEnforcer.shouldHalt, PolicyEnforcer.shouldHalt]
      | reason => simp [TimedCall.step, CheckerCall.step, TimedCall.failures,
          ExecutorFailureEnforcer.reason, PolicyEnforcer.reason]
    rw [run_cons, stepped, Option.bind_some, ih, failures_cons _ rest, List.length_append, UInt32.ofNat_add,
      ← UInt32.add_assoc]

/-- An enforcer compares the tally of its kind with its limit, and does nothing else with the limit. -/
theorem answer_eq (kind : LimitKind) (max : Int32) (history : List TimedCall) (now : ℤ) :
    answer (kind.policy max) history now =
      some (.ok (decide (max.toUInt32 < tally history now kind))) := by
  cases kind with
  | total =>
    rw [answer, LimitKind.policy, ExecutorFailurePolicy.newEnforcer, run_total, Option.bind_some]
    have total : (maxTotalFailures max).failureCount + UInt32.ofNat (TimedCall.failures history).length =
        tally history now .total := UInt32.zero_add _
    rw [total]
    rfl
  | within window =>
    rw [answer, LimitKind.policy, ExecutorFailurePolicy.newEnforcer, run_windowed, Option.bind_some]
    have halts : (compare (tally history now (.within window)) max.toUInt32 == Ordering.gt) =
        decide (max.toUInt32 < tally history now (.within window)) := by
      rw [Bool.eq_iff_iff, beq_iff_eq, Std.compare_eq_gt, decide_eq_true_iff]
    exact congrArg (fun halt => some (Except.ok halt)) halts

private theorem saysHalt_iff {kind : LimitKind} {max : Int32} {history : List TimedCall} {now : ℤ} :
    SaysHalt (kind.policy max) history now ↔ max.toUInt32 < tally history now kind := by
  rw [SaysHalt, answer_eq, Option.some.injEq, Except.ok.injEq, decide_eq_true_iff]

/-- Reading limits as unsigned numbers keeps their order unless it takes a negative one past the others. -/
theorem toUInt32_le_iff {lower higher : Int32} (ordered : lower ≤ higher) :
    lower.toUInt32 ≤ higher.toUInt32 ↔ 0 ≤ lower ∨ higher < 0 := by
  have below := toInt_eq_toUInt32 lower
  have above := toInt_eq_toUInt32 higher
  have bounded : lower.toUInt32.toNat < 2 ^ 32 := lower.toUInt32.toNat_lt
  have bounded' : higher.toUInt32.toNat < 2 ^ 32 := higher.toUInt32.toNat_lt
  rw [Int32.le_iff_toInt_le] at ordered
  rw [UInt32.le_iff_toNat_le, Int32.le_iff_toInt_le, Int32.lt_iff_toInt_lt, Int32.toInt_zero]
  split at below <;> split at above <;> omega

/-- Failures at one time, and nothing else. -/
def burst (count : ℕ) : List TimedCall := List.replicate count ⟨.markFailure, 0⟩

private theorem failures_burst (count : ℕ) : TimedCall.failures (burst count) = List.replicate count 0 := by
  rw [TimedCall.failures, burst, List.filter_replicate_of_pos rfl, List.map_replicate]

private theorem filterMap_burst (count : ℕ) :
    (burst count).filterMap counterCall = List.replicate count (.inc 0) :=
  List.filterMap_replicate_of_some rfl

/-- Every number is the tally of some history, and at the end of the window all of them are inside. -/
theorem exists_tally (kind : LimitKind) (count : UInt32) :
    ∃ history now, tally history now kind = count := by
  cases kind with
  | total =>
    refine ⟨burst count.toNat, 0, ?_⟩
    rw [tally, failures_burst, List.length_replicate, UInt32.ofNat_toNat]
  | within window =>
    refine ⟨burst count.toNat, window.inWholeMilliseconds, ?_⟩
    have counter : WindowCount.performAll window.inWholeMilliseconds ((burst count.toNat).filterMap counterCall) =
        { maxDelta := window.inWholeMilliseconds, entries := List.replicate count.toNat 0 } := by
      rw [filterMap_burst, WindowCount.performAll, WindowCount.foldl_perform_incs, List.nil_append]
    -- no entry lies before the window that ends its own length after all of them
    have kept := WindowCount.prune_incs count.toNat
      (Int.le_of_eq (Int.sub_self window.inWholeMilliseconds))
    rw [tally, WindowCount.answer, counter]
    apply (congrArg (fun entries : List ℤ => UInt32.ofNat entries.length) kept).trans
    rw [List.length_replicate, UInt32.ofNat_toNat]

/-- Limits of one kind are monotone exactly as far as the unsigned numbers are. -/
theorem monotone_iff {kind : LimitKind} {lower higher : Int32} :
    Monotone kind lower higher ↔ lower.toUInt32 ≤ higher.toUInt32 := by
  constructor
  · intro monotone
    by_contra crossed
    rw [UInt32.not_le] at crossed
    -- as many failures as the lower limit allows, which are more than the higher one does
    obtain ⟨history, now, tallied⟩ := exists_tally kind lower.toUInt32
    have halted := monotone history now (saysHalt_iff.mpr (by rw [tallied]; exact crossed))
    rw [saysHalt_iff, tallied] at halted
    exact UInt32.lt_irrefl _ halted
  · intro ordered history now halted
    rw [saysHalt_iff] at halted ⊢
    exact UInt32.lt_of_le_of_lt ordered halted

/-- A history reaches every number of failures up to its own. -/
theorem exists_prefix {history : List TimedCall} {count : ℕ}
    (reached : count ≤ (TimedCall.failures history).length) :
    ∃ first, first <+: history ∧ (TimedCall.failures first).length = count := by
  induction history generalizing count with
  | nil => exact ⟨[], List.prefix_rfl, (Nat.le_zero.mp reached).symm⟩
  | cons event rest ih =>
    rw [failures_cons, List.length_append] at reached
    rcases Nat.lt_or_ge count (TimedCall.failures [event]).length with few | enough
    · have single : (TimedCall.failures [event]).length ≤ 1 := by
        rw [TimedCall.failures, List.length_map]
        exact List.length_filter_le ..
      refine ⟨[], List.nil_prefix, ?_⟩
      have none : count = 0 := by omega
      exact none.symm
    · have remaining : count - (TimedCall.failures [event]).length ≤ (TimedCall.failures rest).length := by
        omega
      obtain ⟨first, start, length⟩ := ih remaining
      refine ⟨event :: first, List.prefix_cons_inj event |>.mpr start, ?_⟩
      rw [failures_cons, List.length_append, length]
      omega

private theorem total_saysHalt_iff {max : Int32} {history : List TimedCall} {now : ℤ} :
    SaysHalt (.maxTotalFailures max) history now ↔
      max.toUInt32.toNat < (TimedCall.failures history).length % 2 ^ 32 := by
  apply (@saysHalt_iff .total max history now).trans
  rw [tally, UInt32.lt_iff_toNat_lt, UInt32.toNat_ofNat']

/-- A total limit latches until its counter starts again; the largest limit is never exceeded. -/
theorem latches_iff {max : Int32} {history : List TimedCall} :
    Latches max history ↔ (TimedCall.failures history).length < 2 ^ 32 ∨ max = -1 := by
  have bounded : max.toUInt32.toNat < 2 ^ 32 := max.toUInt32.toNat_lt
  have largest : max = -1 ↔ max.toUInt32.toNat = 2 ^ 32 - 1 := by
    have signed := toInt_eq_toUInt32 max
    rw [← Int32.toInt_inj, show (-1 : Int32).toInt = -1 from rfl]
    split at signed <;> omega
  rw [largest]
  constructor
  · intro latches
    by_contra neither
    rw [not_or, Nat.not_lt] at neither
    obtain ⟨many, less⟩ := neither
    -- halted with one failure more than allowed, and no longer when the counter is back at zero
    obtain ⟨later, inside, all⟩ := exists_prefix many
    have enough : max.toUInt32.toNat + 1 ≤ (TimedCall.failures later).length := by omega
    obtain ⟨earlier, before, exceeded⟩ := exists_prefix enough
    have halted := latches earlier later before inside 0 0 (total_saysHalt_iff.mpr (by omega))
    rw [total_saysHalt_iff, all, Nat.mod_self] at halted
    omega
  · rintro (few | never) earlier later before inside first last halted
    · rw [total_saysHalt_iff] at halted ⊢
      have count : ∀ {calls more : List TimedCall}, calls <+: more →
          (TimedCall.failures calls).length ≤ (TimedCall.failures more).length :=
        fun start => ((start.sublist.filter _).map _).length_le
      have grown := count before
      have whole := count inside
      rw [Nat.mod_eq_of_lt (by omega)] at halted ⊢
      omega
    · rw [total_saysHalt_iff] at halted
      omega

/-- Lower limits say halt whenever higher ones do exactly if no negative limit is below one that is not,
and a total limit that has said halt goes on saying so exactly until 2^32 failures have been marked, unless
it is the limit no counter exceeds. -/
theorem monotone_and_latching_iff (kind : LimitKind) (lower higher : Int32) (ordered : lower ≤ higher)
    (max : Int32) (history : List TimedCall) :
    (Monotone kind lower higher ↔ 0 ≤ lower ∨ higher < 0) ∧
      (Latches max history ↔ (TimedCall.failures history).length < 2 ^ 32 ∨ max = -1) :=
  ⟨monotone_iff.trans (toUInt32_le_iff ordered), latches_iff⟩

/-- A window of two seconds, and a limit that latches after two failures. -/
theorem monotone_and_latching_iff_two :
    (Monotone (.within ⟨2000000000⟩) 1 2 ↔ (0 : Int32) ≤ 1 ∨ (2 : Int32) < 0) ∧
      (Latches 1 [⟨.markFailure, 0⟩, ⟨.markFailure, 5⟩, ⟨.shouldHalt, 5⟩] ↔
        (TimedCall.failures [⟨.markFailure, 0⟩, ⟨.markFailure, 5⟩, ⟨.shouldHalt, 5⟩]).length < 2 ^ 32 ∨
          (1 : Int32) = -1) :=
  monotone_and_latching_iff (.within ⟨2000000000⟩) 1 2 (by decide) 1
    [⟨.markFailure, 0⟩, ⟨.markFailure, 5⟩, ⟨.shouldHalt, 5⟩]

/-- One failure exceeds a limit of zero and does not exceed a limit of minus one. -/
theorem negative_limit_never_halts : (-1 : Int32) ≤ 0 ∧
    SaysHalt (.maxTotalFailures 0) [⟨.markFailure, 0⟩] 0 ∧
    ¬ SaysHalt (.maxTotalFailures (-1)) [⟨.markFailure, 0⟩] 0 := by
  refine ⟨by decide, rfl, ?_⟩
  rw [total_saysHalt_iff]
  decide

end RabbitJobQueue.Soundness.FailureLimits
