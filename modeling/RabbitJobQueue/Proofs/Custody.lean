import RabbitJobQueue.Proofs.DeliveryHistory

/-! # Who has a message

Every message the broker has accepted is ready, held on an open channel by a delivery that has not
been acknowledged, or removed by one that has. No step loses or duplicates one.
-/

namespace RabbitJobQueue.Model.JobQueue

open Machine JobQueueExecutorPool

variable {ε β δ η : Type} {fromJson : β → Except Throwable δ} {queue next : JobQueue ε β δ η}
  {ref other : DeliveryRef} {delivery after : Delivery β δ} {action : JobQueueAction β η}
  {sent : Option β}

/-- The broker's books agree with the deliveries. -/
structure Custody (queue : JobQueue ε β δ η) : Prop where
  held : ∀ held ∈ queue.broker.unacked, ∃ delivery, queue.deliveries[held.tag]? = some delivery ∧
    delivery.channel = held.channel ∧ delivery.body = held.message ∧ delivery.acks = 0 ∧
    queue.pool.isOpen held.channel = true
  removed : ∀ held ∈ queue.broker.removed, ∃ delivery, queue.deliveries[held.tag]? = some delivery ∧
    delivery.body = held.message ∧ delivery.acks ≠ 0
  known : ∀ delivery ∈ queue.deliveries, delivery.body ∈ queue.broker.inventory

/-- No delivery is added and none is acknowledged. -/
structure SameAcks (queue next : JobQueue ε β δ η) : Prop where
  length : next.deliveries.length = queue.deliveries.length
  acks : ∀ (ref : DeliveryRef) (before after : Delivery β δ), queue.deliveries[ref]? = some before →
    next.deliveries[ref]? = some after → after.acks = before.acks

/-- The message a step brings to the broker, if any. -/
def published : JobQueueAction β η → Option β
  | .publish body => some body
  | _ => none

/-- What a step does to the broker, and the message it has brought. -/
inductive BrokerStep (queue next : JobQueue ε β δ η) : Option β → Prop
  | same (same : next.broker = queue.broker) (pool : next.pool.executors = queue.pool.executors)
      (acks : SameAcks queue next) : BrokerStep queue next none
  | publish (body : β) (sent : next = { queue with broker := queue.broker.publish body }) :
      BrokerStep queue next (some body)
  | deliver (position : ℕ) (ex : ExecutorRef) (body : β) (live : queue.pool.isLive ex = true)
      (handed : queue.broker.deliver position queue.deliveries.length ex = some (next.broker, body))
      (more : next.deliveries = queue.deliveries ++ [{ channel := ex, body }])
      (pool : next.pool = queue.pool) : BrokerStep queue next none
  | ack (ref : DeliveryRef) (before after : Delivery β δ) (read : queue.deliveries[ref]? = some before)
      (acked : next.broker = queue.broker.ack ref)
      (moved : next.deliveries = queue.deliveries.set ref after) (same : SameDelivery before after)
      (acks : after.acks = before.acks + 1) (opened : queue.pool.isOpen before.channel = true)
      (pool : next.pool.executors = queue.pool.executors) : BrokerStep queue next none
  | requeue (requeued : next.broker = queue.broker.requeue fun ex => !next.pool.isOpen ex)
      (acks : SameAcks queue next) : BrokerStep queue next none

/-- A delivery list in which one entry has moved without being acknowledged. -/
theorem sameAcks_set {before : Delivery β δ} (after : Delivery β δ)
    (read : queue.deliveries[other]? = some before) (acks : after.acks = before.acks)
    (moved : next.deliveries = queue.deliveries.set other after) :
    SameAcks queue next := by
  refine ⟨by rw [moved, List.length_set], fun ref old new known found => ?_⟩
  rw [moved, List.getElem?_set] at found
  split at found
  · next here =>
    subst here
    split at found <;> cases found
    cases read.symm.trans known
    exact acks
  · cases known.symm.trans found
    rfl

private theorem sameAcks_of_same (same : next.deliveries = queue.deliveries) : SameAcks queue next := by
  refine ⟨by rw [same], fun ref old new known found => ?_⟩
  rw [same, known] at found
  cases found
  rfl

theorem step_broker [ExecutorFailureEnforcer ε] (stepped : step fromJson queue action = some next) :
    BrokerStep queue next (published action) := by
  cases step_spec stepped with
  | publish body same => exact .publish body same
  | deliver position ex broker body live handed same =>
    subst same
    exact .deliver position ex body live handed rfl rfl
  | callback ref delivery wait read called =>
    obtain ⟨after, spec⟩ := callback_spec read called
    obtain ⟨threads, same⟩ := spec.threads
    have executors : next.pool.executors = queue.pool.executors := congrArg (·.pool.executors) same
    rcases spec.broker with ⟨kept, acks⟩ | ⟨acked, acks, opened⟩
    · exact .same kept executors (sameAcks_set after read acks spec.deliveries)
    · exact .ack ref delivery after read acked spec.deliveries
        ⟨spec.advance.channel, spec.advance.body⟩ acks opened executors
  | handleException ref delivery exception read phase same =>
    subst same
    exact .requeue rfl (sameAcks_set { delivery with phase := .failed exception } read rfl
      (modify_eq_set read))
  | takeTask threads taken same => subst same; exact .same rfl rfl (sameAcks_of_same rfl)
  | nextHandler task execution running idle same =>
    subst same
    refine .same ?_ ?_ (sameAcks_of_same (nextHandler_deliveries queue task execution)) <;>
      unfold nextHandler <;> split <;> rfl
  | handlerReturns task execution running inside same =>
    subst same
    exact .same rfl rfl (sameAcks_of_same rfl)
  | handlerThrows task execution running inside same =>
    subst same
    exact .same rfl rfl (sameAcks_of_same rfl)
  | onJob handler constructed same => subst same; exact .same rfl rfl (sameAcks_of_same rfl)
  | pool action threads other moved same =>
    subst same
    exact .requeue rfl (sameAcks_of_same rfl)

theorem custody_starting (pool : JobQueueExecutorPool ε (Job δ η)) (waiting : List β) :
    Custody (starting pool waiting) :=
  ⟨by simp [starting], by simp [starting], by simp [starting]⟩

/-- No step loses or duplicates a message. -/
theorem BrokerStep.inventory (step : BrokerStep queue next sent) :
    next.broker.inventory.Perm (sent.toList ++ queue.broker.inventory) := by
  cases step with
  | same same pool acks => rw [same]; rfl
  | publish body sent => rw [sent]; exact Broker.publish_inventory _ _
  | deliver position ex body live handed more pool => exact Broker.deliver_inventory handed
  | ack ref before after read acked moved same acks opened pool =>
    rw [acked]
    exact Broker.ack_inventory _ _
  | requeue requeued acks => rw [requeued]; exact Broker.requeue_inventory _ _

private theorem mem_inventory_step (step : BrokerStep queue next sent) {body : β}
    (member : body ∈ queue.broker.inventory) : body ∈ next.broker.inventory :=
  step.inventory.mem_iff.mpr (List.mem_append_right _ member)

/-- An acknowledged delivery stays acknowledged. -/
theorem DeliveryStep.acknowledged (step : DeliveryStep fromJson queue next action)
    (read : queue.deliveries[ref]? = some delivery) (acks : delivery.acks ≠ 0) :
    ∃ after, next.deliveries[ref]? = some after ∧ after.body = delivery.body ∧ after.acks ≠ 0 := by
  obtain ⟨after, readAfter, same, rfl | ⟨-, advance⟩⟩ := step.kept read
  · exact ⟨after, readAfter, rfl, acks⟩
  · exact ⟨after, readAfter, same.body, fun none => acks (Nat.le_zero.mp (none ▸ advance.acks_le))⟩

private theorem Custody.held_step (custody : Custody queue) (broker : BrokerStep queue next sent)
    (deliveries : DeliveryStep fromJson queue next action) {held : Held ExecutorRef β}
    (member : held ∈ next.broker.unacked) :
    ∃ delivery, next.deliveries[held.tag]? = some delivery ∧ delivery.channel = held.channel ∧
      delivery.body = held.message ∧ delivery.acks = 0 ∧ next.pool.isOpen held.channel = true := by
  have carry : held ∈ queue.broker.unacked → SameAcks queue next →
      next.pool.isOpen held.channel = true →
      ∃ delivery, next.deliveries[held.tag]? = some delivery ∧ delivery.channel = held.channel ∧
        delivery.body = held.message ∧ delivery.acks = 0 ∧ next.pool.isOpen held.channel = true := by
    intro old same opened
    obtain ⟨before, read, channel, body, acks, -⟩ := custody.held held old
    obtain ⟨after, readAfter, alike, -⟩ := deliveries.kept read
    exact ⟨after, readAfter, alike.channel.trans channel, alike.body.trans body,
      (same.acks held.tag before after read readAfter).trans acks, opened⟩
  cases broker with
  | same same pool acks =>
    rw [same] at member
    apply carry member acks
    rw [isOpen_of_executors pool]
    exact (custody.held held member).choose_spec.2.2.2.2
  | publish body sent =>
    subst sent
    exact custody.held held member
  | deliver position ex body live handed more pool =>
    obtain ⟨-, grown⟩ := Broker.deliver_eq_some.mp handed
    rw [grown] at member
    rw [more, pool]
    rcases List.mem_append.mp member with old | new
    · obtain ⟨before, read, rest⟩ := custody.held held old
      exact ⟨before, getElem?_alloc_of_some read, rest⟩
    · rw [List.mem_singleton.mp new]
      exact ⟨_, List.getElem?_concat_length .., rfl, rfl, rfl, (isOpen_of_isLive live).1⟩
  | ack ref before after read acked moved same acks opened pool =>
    rw [acked] at member
    obtain ⟨old, other⟩ := Broker.mem_unacked_ack.mp member
    obtain ⟨before, readHeld, rest⟩ := custody.held held old
    rw [moved, List.getElem?_set_ne (Ne.symm other), isOpen_of_executors pool]
    exact ⟨before, readHeld, rest⟩
  | requeue requeued acks =>
    rw [requeued] at member
    obtain ⟨old, opened⟩ := Broker.mem_unacked_requeue.mp member
    exact carry old acks (by simpa using opened)

private theorem Custody.removed_step (custody : Custody queue) (broker : BrokerStep queue next sent)
    (deliveries : DeliveryStep fromJson queue next action) {held : Held ExecutorRef β}
    (member : held ∈ next.broker.removed) :
    ∃ delivery, next.deliveries[held.tag]? = some delivery ∧ delivery.body = held.message ∧
      delivery.acks ≠ 0 := by
  have carry : held ∈ queue.broker.removed →
      ∃ delivery, next.deliveries[held.tag]? = some delivery ∧ delivery.body = held.message ∧
        delivery.acks ≠ 0 := by
    intro old
    obtain ⟨before, read, body, acks⟩ := custody.removed held old
    obtain ⟨after, readAfter, alike, still⟩ := deliveries.acknowledged read acks
    exact ⟨after, readAfter, alike.trans body, still⟩
  cases broker with
  | same same pool acks => exact carry (same ▸ member)
  | publish body sent => exact carry (by rw [sent] at member; exact member)
  | deliver position ex body live handed more pool =>
    obtain ⟨-, grown⟩ := Broker.deliver_eq_some.mp handed
    exact carry (by rw [grown] at member; exact member)
  | ack ref before after read acked moved same acks opened pool =>
    rw [acked] at member
    rcases Broker.mem_removed_ack.mp member with old | ⟨old, rfl⟩
    · exact carry old
    · obtain ⟨found, readFound, -, body, -⟩ := custody.held held old
      cases read.symm.trans readFound
      obtain ⟨inside, -⟩ := List.getElem?_eq_some_iff.mp read
      refine ⟨after, by rw [moved, List.getElem?_set_self inside], same.body.trans body, ?_⟩
      rw [acks]
      exact Nat.succ_ne_zero _
  | requeue requeued acks => exact carry (by rw [requeued] at member; exact member)

private theorem Custody.known_step (custody : Custody queue) (broker : BrokerStep queue next sent)
    (deliveries : DeliveryStep fromJson queue next action) (member : delivery ∈ next.deliveries) :
    delivery.body ∈ next.broker.inventory := by
  have old : ∀ before ∈ queue.deliveries, before.body ∈ next.broker.inventory :=
    fun before known => mem_inventory_step broker (custody.known before known)
  cases deliveries with
  | same same => exact old delivery (same ▸ member)
  | advanced ref before after asked read advance moved =>
    rw [moved] at member
    rcases List.mem_or_eq_of_mem_set member with known | rfl
    · exact old delivery known
    · rw [advance.body]
      exact old before (List.mem_of_getElem? read)
  | delivered ex body live more =>
    have longer : next.deliveries.length = queue.deliveries.length + 1 := by rw [more]; simp
    cases broker with
    | deliver position ex' body' live' handed more' pool =>
      obtain ⟨read, -⟩ := Broker.deliver_eq_some.mp handed
      rw [more'] at member
      rcases List.mem_append.mp member with known | new
      · exact old delivery known
      · rw [List.mem_singleton.mp new]
        apply (Broker.deliver_inventory handed).mem_iff.mpr
        exact Broker.mem_inventory.mpr (.inl (List.mem_of_getElem? read))
    | same same pool acks => exact absurd (acks.length.symm.trans longer) (Nat.ne_of_lt (Nat.lt_succ_self _))
    | requeue requeued acks => exact absurd (acks.length.symm.trans longer) (Nat.ne_of_lt (Nat.lt_succ_self _))
    | publish body sent =>
      rw [sent] at longer
      exact absurd longer (Nat.ne_of_lt (Nat.lt_succ_self _))
    | ack ref before after read acked moved same acks opened pool =>
      rw [moved, List.length_set] at longer
      omega

theorem custody_step [ExecutorFailureEnforcer ε] (custody : Custody queue)
    (stepped : step fromJson queue action = some next) : Custody next :=
  ⟨fun _ member => custody.held_step (step_broker stepped) (step_deliveries stepped) member,
    fun _ member => custody.removed_step (step_broker stepped) (step_deliveries stepped) member,
    fun _ member => custody.known_step (step_broker stepped) (step_deliveries stepped) member⟩

end RabbitJobQueue.Model.JobQueue
