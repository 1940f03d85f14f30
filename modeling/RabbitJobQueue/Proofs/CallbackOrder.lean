import RabbitJobQueue.Proofs.JobQueueSteps

/-! # The order of the callbacks of a channel

The client starts a delivery callback when the callbacks of all earlier deliveries of its channel are over:
as long as one of them waits, the deliveries behind it on the channel have not begun.
-/

namespace RabbitJobQueue.Model.JobQueue

open Machine

variable {ε β δ η : Type} {fromJson : β → Except Throwable δ} {queue next : JobQueue ε β δ η}
  {ref : DeliveryRef} {action : JobQueueAction β η}

/-- The callbacks of a channel are executed in order. -/
def InOrder (queue : JobQueue ε β δ η) : Prop :=
  ∀ (first second : DeliveryRef) (earlier later : Delivery β δ), first < second →
    queue.deliveries[first]? = some earlier → queue.deliveries[second]? = some later →
    earlier.channel = later.channel → later.phase ≠ .received → earlier.phase.isOver = true

theorem isOver_of_isNext {first : DeliveryRef} {earlier : Delivery β δ}
    (turn : queue.isNext ref earlier.channel = true) (before : first < ref)
    (read : queue.deliveries[first]? = some earlier) : earlier.phase.isOver = true := by
  rw [isNext, List.all_eq_true] at turn
  have member : earlier ∈ queue.deliveries.take ref := by
    apply List.mem_of_getElem?
    rw [List.getElem?_take, if_pos before]
    exact read
  simpa using turn earlier member

variable [ExecutorFailureEnforcer ε]

private theorem inOrder_step (inOrder : InOrder queue) (stepped : step fromJson queue action = some next) :
    InOrder next := by
  intro first second earlier later before readFirst readSecond channel begun
  have deliveries := step_deliveries stepped
  -- a delivery that is over stays as it is, so it is enough that the earlier one was over before
  have earlierOver : ∀ old, queue.deliveries[second]? = some old → old.channel = later.channel →
      (∀ known, queue.deliveries[first]? = some known → known.channel = old.channel →
        known.phase.isOver = true) → earlier.phase.isOver = true := by
    intro old known same ended
    obtain ⟨inside, -⟩ := List.getElem?_eq_some_iff.mp known
    have readOld := List.getElem?_eq_getElem (Nat.lt_trans before inside)
    obtain ⟨after, readAfter, alike, moved⟩ := deliveries.kept readOld
    cases readFirst.symm.trans readAfter
    have wasOver := ended _ readOld (alike.channel.symm.trans (channel.trans same.symm))
    rcases moved with unmoved | ⟨-, advance⟩
    · rw [unmoved]
      exact wasOver
    · rw [advance.isOver] at wasOver
      contradiction
  cases deliveries.origin readSecond with
  | same old =>
    exact earlierOver later old rfl fun known readKnown same =>
      inOrder first second known later before readKnown old same begun
  | advanced old asked known advance =>
    apply earlierOver old known advance.channel.symm
    intro first' readKnown same
    cases phase : old.phase with
    | received =>
      cases advance with
      | accept _ turn _ => exact isOver_of_isNext (same ▸ turn) before readKnown
      | refuse _ turn _ => exact isOver_of_isNext (same ▸ turn) before readKnown
      | _ => simp_all only [reduceCtorEq]
    | _ => exact inOrder first second first' old before readKnown known same (by rw [phase]; simp)
  | delivered ex body live fresh =>
    subst fresh
    contradiction

theorem inOrder_of_run {pool : JobQueueExecutorPool ε (Job δ η)} {waiting : List β}
    {actions : List (JobQueueAction β η)}
    (ran : run (step fromJson) (starting pool waiting) actions = some queue) : InOrder queue := by
  refine run_invariant (fun _ _ _ inOrder stepped => inOrder_step inOrder stepped) ?_ ran
  intro first second earlier later before read
  simp [starting] at read

/-- While a callback runs, those before it on the channel are over and those behind it have not begun. -/
theorem InOrder.alone {delivery : Delivery β δ} (inOrder : InOrder queue)
    (read : queue.deliveries[ref]? = some delivery) (begun : delivery.phase ≠ .received)
    (running : delivery.phase.isOver = false) (other : DeliveryRef) (known : Delivery β δ)
    (readKnown : queue.deliveries[other]? = some known) (channel : known.channel = delivery.channel) :
    (other < ref → known.phase.isOver = true) ∧ (ref < other → known.phase = .received) := by
  constructor
  · intro before
    exact inOrder other ref known delivery before readKnown read channel begun
  · intro behind
    by_contra early
    have ended := inOrder ref other delivery known behind read readKnown channel.symm early
    rw [running] at ended
    contradiction

end RabbitJobQueue.Model.JobQueue
