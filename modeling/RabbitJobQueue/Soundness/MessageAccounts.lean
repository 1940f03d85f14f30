import RabbitJobQueue.Soundness.AtLeastOnce
import RabbitJobQueue.Soundness.UnstartedJobs

/-! # The accounts of the broker

The broker's books and the deliveries agree to the last message: what is held or has been removed is
exactly what the deliveries stand for that are acknowledged or have an open channel, each once. So every
message ever published is either ready or has exactly one such delivery; all its other deliveries have
lost their channel unacknowledged.
-/

namespace RabbitJobQueue.Soundness.MessageAccounts

open Machine Model Model.JobQueue AtLeastOnce

variable {ε β δ η : Type} {fromJson : β → Except Throwable δ} {queue next : JobQueue ε β δ η}
  {ref : DeliveryRef} {delivery : Delivery β δ} {action : JobQueueAction β η} {sent : Option β}

/-- The delivery is acknowledged, or can still be. -/
def stands (queue : JobQueue ε β δ η) (delivery : Delivery β δ) : Bool :=
  delivery.acks != 0 || queue.pool.isOpen delivery.channel

/-- The broker keeps a tag, and only once, exactly as long as its delivery stands. -/
structure Accounted (queue : JobQueue ε β δ η) : Prop where
  nodup : queue.broker.tags.Nodup
  mem_iff : ∀ ref, ref ∈ queue.broker.tags ↔
    ∃ delivery, queue.deliveries[ref]? = some delivery ∧ stands queue delivery = true

private theorem stands_iff : stands queue delivery = true ↔
    delivery.acks ≠ 0 ∨ queue.pool.isOpen delivery.channel = true := by
  simp [stands]

/-- A standing delivery under this reference. -/
def Standing (queue : JobQueue ε β δ η) (ref : DeliveryRef) : Prop :=
  ∃ delivery, queue.deliveries[ref]? = some delivery ∧ stands queue delivery = true

/-- A step that adds no delivery and lets each of them stand as before. -/
theorem standing_iff_of_kept (step : DeliveryStep fromJson queue next action)
    (length : next.deliveries.length = queue.deliveries.length)
    (same : ∀ (before after : Delivery β δ), queue.deliveries[ref]? = some before →
      next.deliveries[ref]? = some after → after.channel = before.channel →
      (stands next after = true ↔ stands queue before = true)) : Standing next ref ↔ Standing queue ref := by
  constructor
  · rintro ⟨after, readAfter, standing⟩
    obtain ⟨inside, -⟩ := List.getElem?_eq_some_iff.mp readAfter
    have read := List.getElem?_eq_getElem (length ▸ inside)
    obtain ⟨_, known, alike, -⟩ := step.kept read
    cases readAfter.symm.trans known
    exact ⟨_, read, (same _ after read readAfter alike.channel).mp standing⟩
  · rintro ⟨before, read, standing⟩
    obtain ⟨after, readAfter, alike, -⟩ := step.kept read
    exact ⟨after, readAfter, (same before after read readAfter alike.channel).mpr standing⟩

private theorem Accounted.step_of_kept (accounted : Accounted queue)
    (tags : next.broker.tags.Perm queue.broker.tags)
    (standing : ∀ ref, Standing next ref ↔ Standing queue ref) : Accounted next := by
  refine ⟨tags.nodup_iff.mpr accounted.nodup, fun ref => ?_⟩
  rw [tags.mem_iff, accounted.mem_iff ref]
  exact (standing ref).symm

private theorem Accounted.deliver (accounted : Accounted queue) {position : ℕ} {ex : ExecutorRef} {body : β}
    (live : queue.pool.isLive ex = true)
    (handed : queue.broker.deliver position queue.deliveries.length ex = some (next.broker, body))
    (more : next.deliveries = queue.deliveries ++ [{ channel := ex, body }]) (pool : next.pool = queue.pool) :
    Accounted next := by
  have tags := Broker.deliver_tags handed
  have fresh : queue.deliveries.length ∉ queue.broker.tags := by
    intro member
    obtain ⟨delivery, read, -⟩ := (accounted.mem_iff _).mp member
    exact Nat.lt_irrefl _ (List.getElem?_eq_some_iff.mp read).1
  have same (delivery : Delivery β δ) : stands next delivery = stands queue delivery := by
    rw [stands, stands, pool]
  refine ⟨tags.nodup_iff.mpr (List.nodup_cons.mpr ⟨fresh, accounted.nodup⟩), fun ref => ?_⟩
  rw [tags.mem_iff, List.mem_cons, accounted.mem_iff ref, more]
  constructor
  · rintro (rfl | ⟨delivery, read, standing⟩)
    · exact ⟨_, List.getElem?_concat_length .., stands_iff.mpr (.inr (pool ▸ (isOpen_of_isLive live).1))⟩
    · exact ⟨delivery, getElem?_alloc_of_some read, (same delivery).trans standing⟩
  · rintro ⟨delivery, read, standing⟩
    rcases getElem?_alloc_eq_some.mp read with old | ⟨here, -⟩
    · exact .inr ⟨delivery, old, (same delivery).symm.trans standing⟩
    · exact .inl here

/-- Acknowledging a delivery of an open channel lets it stand. -/
theorem standing_iff_of_ack {tagged : DeliveryRef} {before after : Delivery β δ}
    (read : queue.deliveries[tagged]? = some before)
    (moved : next.deliveries = queue.deliveries.set tagged after) (acks : after.acks = before.acks + 1)
    (opened : queue.pool.isOpen before.channel = true)
    (pool : next.pool.executors = queue.pool.executors) (ref : DeliveryRef) :
    Standing next ref ↔ Standing queue ref := by
  have same (delivery : Delivery β δ) : stands next delivery = stands queue delivery := by
    rw [stands, stands, isOpen_of_executors pool]
  unfold Standing
  rw [moved, List.getElem?_set]
  by_cases here : tagged = ref
  · subst here
    obtain ⟨inside, -⟩ := List.getElem?_eq_some_iff.mp read
    rw [if_pos rfl, if_pos inside]
    constructor
    · intro _
      exact ⟨before, read, stands_iff.mpr (.inr opened)⟩
    · intro _
      exact ⟨after, rfl, stands_iff.mpr (.inl (by rw [acks]; exact Nat.succ_ne_zero _))⟩
  · simp only [if_neg here, same]

private theorem Accounted.requeue (accounted : Accounted queue) (custody : Custody queue)
    (older : Older queue next) (coherent : Coherent queue) (step : DeliveryStep fromJson queue next action)
    (requeued : next.broker = queue.broker.requeue fun ex => !next.pool.isOpen ex)
    (acks : SameAcks queue next) : Accounted next := by
  have kept : next.broker.tags.Sublist queue.broker.tags := by
    rw [requeued]
    exact Broker.requeue_tags ..
  refine ⟨accounted.nodup.sublist kept, fun ref => ?_⟩
  constructor
  · intro member
    obtain ⟨before, read, -⟩ := (accounted.mem_iff ref).mp (kept.subset member)
    obtain ⟨after, readAfter, alike, -⟩ := step.kept read
    refine ⟨after, readAfter, stands_iff.mpr ?_⟩
    rcases Broker.mem_tags.mp member with ⟨held, still, rfl⟩ | ⟨held, gone, rfl⟩
    · rw [requeued] at still
      obtain ⟨old, opened⟩ := Broker.mem_unacked_requeue.mp still
      obtain ⟨found, known, channel, -⟩ := custody.held held old
      cases read.symm.trans known
      exact .inr (by rw [alike.channel, channel]; simpa using opened)
    · rw [requeued] at gone
      obtain ⟨found, known, -, acked⟩ := custody.removed held gone
      cases read.symm.trans known
      exact .inl (by rw [acks.acks held.tag before after read readAfter]; exact acked)
  · rintro ⟨after, readAfter, standing⟩
    obtain ⟨inside, -⟩ := List.getElem?_eq_some_iff.mp readAfter
    obtain ⟨before, read⟩ : ∃ before, queue.deliveries[ref]? = some before :=
      ⟨_, List.getElem?_eq_getElem (acks.length ▸ inside)⟩
    obtain ⟨_, known, alike, -⟩ := step.kept read
    cases readAfter.symm.trans known
    have unacked := acks.acks ref before after read readAfter
    have channelKnown := (coherent.recorded ref before read).inside
    have stood : stands queue before = true := by
      rcases stands_iff.mp standing with acked | opened
      · exact stands_iff.mpr (.inl (unacked ▸ acked))
      · exact stands_iff.mpr (.inr (older.isOpen (alike.channel ▸ opened) channelKnown))
    rw [requeued]
    apply Broker.mem_tags.mpr
    rcases Broker.mem_tags.mp ((accounted.mem_iff ref).mpr ⟨_, read, stood⟩) with
      ⟨held, member, rfl⟩ | ⟨held, member, same⟩
    · obtain ⟨found, known, channel, -, none, -⟩ := custody.held held member
      cases read.symm.trans known
      rcases stands_iff.mp standing with acked | opened
      · exact absurd (unacked.trans none) acked
      · refine .inl ⟨held, Broker.mem_unacked_requeue.mpr ⟨member, ?_⟩, rfl⟩
        rw [alike.channel, channel] at opened
        simp [opened]
    · exact .inr ⟨held, member, same⟩

private theorem accounted_step [ExecutorFailureEnforcer ε] (accounted : Accounted queue)
    (custody : Custody queue)
    (coherent : Coherent queue) (stepped : step fromJson queue action = some next) : Accounted next := by
  have deliveries := step_deliveries stepped
  have broker := step_broker stepped
  generalize published action = sent at broker
  cases broker with
  | same same pool acks =>
    apply accounted.step_of_kept (by rw [same])
    intro ref
    apply standing_iff_of_kept deliveries acks.length
    intro before after read readAfter channel
    rw [stands_iff, stands_iff, acks.acks ref before after read readAfter, channel, isOpen_of_executors pool]
  | publish body sent =>
    subst sent
    exact ⟨accounted.nodup, accounted.mem_iff⟩
  | deliver position ex body live handed more pool => exact accounted.deliver live handed more pool
  | ack ref before after read acked moved same acks opened pool =>
    apply accounted.step_of_kept (by rw [acked]; exact Broker.ack_tags ..)
    exact standing_iff_of_ack read moved acks opened pool
  | requeue requeued acks =>
    exact accounted.requeue custody (step_older stepped) coherent deliveries requeued acks

/-- The books list the messages of the standing deliveries. -/
theorem books_perm (accounted : Accounted queue) (custody : Custody queue) :
    (queue.broker.unacked.map (·.message) ++ queue.broker.removed.map (·.message)).Perm
      ((queue.deliveries.filter (stands queue)).map (·.body)) := by
  have books : ∀ held ∈ queue.broker.unacked ++ queue.broker.removed,
      (queue.deliveries[held.tag]?).map (·.body) = some held.message := by
    intro held member
    rcases List.mem_append.mp member with still | gone
    · obtain ⟨delivery, read, -, body, -⟩ := custody.held held still
      rw [read, Option.map_some, body]
    · obtain ⟨delivery, read, body, -⟩ := custody.removed held gone
      rw [read, Option.map_some, body]
  have messages : queue.broker.unacked.map (·.message) ++ queue.broker.removed.map (·.message) =
      queue.broker.tags.filterMap fun ref => (queue.deliveries[ref]?).map (·.body) := by
    rw [← List.map_append, Broker.tags, List.filterMap_map, ← List.filterMap_eq_map]
    exact (List.filterMap_congr books).symm
  rw [messages, filter_map_eq_filterMap_range]
  apply List.Perm.filterMap
  apply (List.perm_ext_iff_of_nodup accounted.nodup (List.nodup_range.filter _)).mpr
  intro ref
  rw [accounted.mem_iff ref, List.mem_filter, List.mem_range, Option.any_eq_true]
  constructor
  · rintro ⟨delivery, read, standing⟩
    exact ⟨(List.getElem?_eq_some_iff.mp read).1, delivery, read, standing⟩
  · rintro ⟨-, found⟩
    exact found

theorem accounted_of_run [ExecutorFailureEnforcer ε] {config : ExecutorPoolConfig ε} {clock : Clock}
    {waiting : List β} {actions : List (JobQueueAction β η)} {pool : JobQueueExecutorPool ε (Job δ η)}
    (constructed : JobQueueExecutorPool.new config clock = .ok pool)
    (ran : run (step fromJson) (starting pool waiting) actions = some queue) :
    Accounted queue ∧ Custody queue ∧ Coherent queue := by
  refine run_invariant (motive := fun reached => Accounted reached ∧ Custody reached ∧ Coherent reached)
    ?_ ?_ ran
  · rintro reached action after ⟨accounted, custody, coherent⟩ stepped
    exact ⟨accounted_step accounted custody coherent stepped, custody_step custody stepped,
      coherent_step coherent stepped⟩
  · exact ⟨⟨List.nodup_nil, fun ref => by simp [starting, Broker.tags]⟩, custody_starting _ waiting,
      coherent_of_new constructed⟩

/-- Every message published is ready, or has exactly one delivery that stands. -/
theorem accounts [ExecutorFailureEnforcer ε] (config : ExecutorPoolConfig ε) (clock : Clock)
    (fromJson : β → Except Throwable δ) (waiting : List β) (actions : List (JobQueueAction β η))
    (pool : JobQueueExecutorPool ε (Job δ η)) (constructed : JobQueueExecutorPool.new config clock = .ok pool)
    (ran : run (step fromJson) (starting pool waiting) actions = some queue) :
    (waiting ++ dispatched actions).Perm
      (queue.broker.ready ++ (queue.deliveries.filter (stands queue)).map (·.body)) := by
  obtain ⟨accounted, custody, -⟩ := accounted_of_run constructed ran
  have inventory : queue.broker.inventory.Perm (waiting ++ dispatched actions) := by
    simpa [starting, Broker.inventory] using inventory_of_run ran
  exact inventory.symm.trans ((books_perm accounted custody).append_left _)

/-- The broker closes the channel of a delivered message; the consumer is replaced, and the message is
delivered again. -/
def redelivered : List (JobQueueAction ℕ ℕ) :=
  List.replicate 3 (.pool (.exec 0 {} false)) ++ [.deliver 0 0, .pool (.close 0 .broker), .pool (.signal 0)] ++
    List.replicate 8 (.pool (.exec 1 {} false)) ++ [.deliver 0 1]

/-- Of the two deliveries of the message, one stands. -/
theorem accounts_redelivered : ∃ queue : JobQueue MaxFailureEnforcer ℕ ℕ ℕ,
    run (step .ok) (starting UnstartedJobs.onePool [1]) redelivered = some queue ∧
    queue.deliveries.map (stands queue) = [false, true] ∧
    ([1] ++ dispatched redelivered).Perm
      (queue.broker.ready ++ (queue.deliveries.filter (stands queue)).map Delivery.body) :=
  ⟨_, rfl, rfl, accounts ⟨"jobs", 1, maxTotalFailures 5⟩ (Stream'.const 0) .ok [1] redelivered
    UnstartedJobs.onePool rfl rfl⟩

end RabbitJobQueue.Soundness.MessageAccounts
