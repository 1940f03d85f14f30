import RabbitJobQueue.Proofs.ExecutorChannels

/-! # Notifications and consumers share one budget of channels

The consumers of an executor and the notifications it sends take their channels from one connection, and
a notification never gives its channel back. So the consumers that are alive and the notifications that
have been sent never outnumber the channels of the connection: an executor that has sent as many
notifications as the connection has channels consumes nothing more and sends nothing more, however often
its pool replaces a consumer.
-/

namespace RabbitJobQueue.Soundness.ChannelBudget

open Machine Model Model.Connection Model.JobQueueExecutor JobQueueExecutorPool

variable {ε π β E S : Type}

/-- How many executors of the pool have an open channel. -/
def openConsumers (pool : JobQueueExecutorPool ε π) : ℕ := (channelsOf pool).countP (·.isOpen)

private theorem liveCount_le_openConsumers (pool : JobQueueExecutorPool ε π) :
    pool.liveCount ≤ openConsumers pool := by
  rw [liveCount, openConsumers, channelsOf, List.countP_map]
  apply List.countP_mono_left
  intro consumer _ live
  rw [Executor.isLive, Bool.and_eq_true] at live
  exact live.2

/-- While the connection is open every notification sent holds an open channel that no consumer uses; once
it is aborted no consumer is left. -/
structure Budget (executor : JobQueueExecutor ε π β) : Prop where
  shared : Shared executor
  live : executor.connection.isOpen = true →
    openConsumers executor.executorPool.pool + executor.connection.published.length ≤
      executor.connection.openChannels
  aborted : executor.connection.isOpen = false → openConsumers executor.executorPool.pool = 0 ∧
    executor.connection.published.length ≤ executor.connection.channelMax

variable {executor next : JobQueueExecutor ε π β} {pool : JobQueueExecutorPool ε π}

private theorem Budget.total (budget : Budget executor) :
    openConsumers executor.executorPool.pool + executor.connection.published.length ≤
      executor.connection.channelMax := by
  cases open' : executor.connection.isOpen with
  | true => exact Nat.le_trans (budget.live open') budget.shared.within
  | false =>
    obtain ⟨none, bound⟩ := budget.aborted open'
    omega

/-- A notification that is sent takes a channel; one that is not leaves everything as it was, or a closed
channel behind. -/
theorem sending_counts {connection after : Connection β} (sending : Sending connection after) :
    after.isOpen = connection.isOpen ∧ after.channelMax = connection.channelMax ∧
    ((after.openChannels = connection.openChannels ∧ after.published = connection.published) ∨
      (connection.isOpen = true ∧ after.openChannels = connection.openChannels + 1 ∧
        ∃ notification, after.published = connection.published ++ [notification])) := by
  cases sending with
  | failed => exact ⟨rfl, rfl, .inl ⟨rfl, rfl⟩⟩
  | refused => exact ⟨rfl, rfl, .inl ⟨openChannels_alloc connection, rfl⟩⟩
  | sent live free declaration queue body =>
    exact ⟨rfl, rfl, .inr ⟨live, openChannels_alloc connection, _, rfl⟩⟩

/-- The channel of a consumer is closed once, for both sides. -/
theorem closes_counts (shared : Shared executor) {ex : ExecutorRef} {channel : ChannelRef} {cause : CloseCause}
    (own : executor.channels[ex]? = some channel)
    (closed : channelsOf pool = (channelsOf executor.executorPool.pool).modify ex (·.close cause)) :
    ∃ freed, openConsumers pool + freed = openConsumers executor.executorPool.pool ∧
      (executor.connection.closeChannel channel cause).openChannels + freed =
        executor.connection.openChannels := by
  obtain ⟨state, known, read⟩ := shared.read own
  have consumers := countP_modify (·.isOpen) (·.close cause) known
  have channels := countP_modify (·.isOpen) (·.close cause) read
  simp only [Channel.isOpen_close, Bool.false_eq_true, if_false, Nat.add_zero] at consumers channels
  rw [← closed] at consumers
  exact ⟨_, consumers, channels⟩

private theorem openConsumers_abort {channels : List Channel}
    (closed : channelsOf pool = channels.map (·.close .connectionAbort)) : openConsumers pool = 0 := by
  rw [openConsumers, closed, List.countP_eq_zero]
  intro channel member
  obtain ⟨before, -, rfl⟩ := List.mem_map.mp member
  simp

private theorem openConsumers_alloc
    (more : channelsOf pool = channelsOf executor.executorPool.pool ++ [{ closedBy := none }]) :
    openConsumers pool = openConsumers executor.executorPool.pool + 1 := by
  rw [openConsumers, more, countP_alloc]
  rfl

private theorem budget_of_moves (moves : Moves executor next) (budget : Budget executor) : Budget next := by
  have shared := moves.shared budget.shared
  have total := budget.total
  cases moves with
  | @sends connection threads sending same =>
    obtain ⟨sameOpen, sameMax, outcome⟩ := sending_counts sending
    have consumers : openConsumers threads.pool = openConsumers executor.executorPool.pool := by
      rw [openConsumers, same, openConsumers]
    refine ⟨shared, ?_, ?_⟩ <;> dsimp only <;> intro connected <;> rw [sameOpen] at connected
    · have before := budget.live connected
      rcases outcome with ⟨count, published⟩ | ⟨-, count, notification, published⟩
      · rw [consumers, published, count]
        exact before
      · rw [consumers, published, count, List.length_append, List.length_singleton]
        omega
    · obtain ⟨none, bound⟩ := budget.aborted connected
      rcases outcome with ⟨-, published⟩ | ⟨open', -⟩
      · rw [consumers, published, sameMax]
        exact ⟨none, bound⟩
      · rw [open'] at connected
        contradiction
  | @creates threads declaration live free more =>
    have consumers := openConsumers_alloc more
    refine ⟨shared, ?_, ?_⟩
    · intro _
      have before := budget.live live
      dsimp only
      rw [consumers, openChannels, countP_alloc]
      rw [openChannels] at before
      simp only [Channel.isOpen, Option.isNone_none, if_true]
      simp only [Channel.isOpen] at before
      omega
    · intro closed
      rw [live] at closed
      contradiction
  | @closes threads ex channel cause own closed =>
    obtain ⟨freed, consumers, channels⟩ := closes_counts budget.shared own closed
    refine ⟨shared, ?_, ?_⟩
    · intro open'
      have before := budget.live open'
      change openConsumers threads.pool + executor.connection.published.length ≤
        (executor.connection.closeChannel channel cause).openChannels
      omega
    · intro isClosed
      obtain ⟨none, bound⟩ := budget.aborted isClosed
      exact ⟨by dsimp only; omega, bound⟩
  | aborts closed =>
    refine ⟨shared, ?_, ?_⟩
    · intro open'
      cases open'
    · intro _
      exact ⟨openConsumers_abort closed, Nat.le_trans (Nat.le_add_left _ _) total⟩

/-- The connection stays the one it is, and what has been sent stays sent. -/
theorem published_of_moves (moves : Moves executor next) :
    next.connection.channelMax = executor.connection.channelMax ∧
      executor.connection.published <+: next.connection.published := by
  cases moves with
  | sends sending same =>
    obtain ⟨-, sameMax, ⟨-, published⟩ | ⟨-, -, notification, published⟩⟩ := sending_counts sending
    · exact ⟨sameMax, published ▸ List.prefix_refl _⟩
    · exact ⟨sameMax, published ▸ List.prefix_append ..⟩
  | creates | closes | aborts => exact ⟨rfl, List.prefix_refl _⟩

/-- Nobody closes a channel from outside but a consumer's. -/
def OnlyConsumers (executor : JobQueueExecutor ε π β) : ExecutorAction E S → Prop
  | .close channel _ => channel ∈ executor.channels
  | _ => True

private theorem budget_starting (config : QueueConfig) (channelMax : ℕ) {pool : JobQueueExecutorPool ε π}
    (fresh : pool.executors = []) : Budget (starting config channelMax pool : JobQueueExecutor ε π β) where
  shared := shared_starting config channelMax fresh
  live _ := by simp [starting, PoolThreads.starting, openConsumers, channelsOf, fresh]
  aborted closed := by cases closed

section Runs

variable [ExecutorFailureEnforcer ε] [JsonSerializable E β] [JsonSerializable S β]
  {action : ExecutorAction E S} {actions : List (ExecutorAction E S)}

private theorem moves_of_onlyConsumers (shared : Shared executor) (only : OnlyConsumers executor action)
    (stepped : executor.step action = some next) : Moves executor next := by
  rcases step_moves shared stepped with moves | ⟨channel, cause, rfl, unused, -⟩
  · exact moves
  · exact absurd only unused

private theorem budget_run (only : Along step OnlyConsumers executor actions) (budget : Budget executor)
    (ran : run step executor actions = some next) :
    Budget next ∧ next.connection.channelMax = executor.connection.channelMax ∧
      executor.connection.published <+: next.connection.published := by
  refine run_invariant_along (motive := fun current => Budget current ∧
    current.connection.channelMax = executor.connection.channelMax ∧
    executor.connection.published <+: current.connection.published) ?_
    ⟨budget, rfl, List.prefix_refl _⟩ only ran
  rintro source action target ⟨before, sameMax, sent⟩ allowed stepped
  have moves := moves_of_onlyConsumers before.shared allowed stepped
  obtain ⟨same, more⟩ := published_of_moves moves
  exact ⟨budget_of_moves moves before, same.trans sameMax, sent.trans more⟩

/-- The consumers alive and the notifications sent never outnumber the channels of the connection; once the
notifications have taken them all, nothing is consumed and nothing is sent any more. -/
theorem consumers_and_notifications (config : QueueConfig) (settings : ExecutorPoolConfig ε) (clock : Clock)
    (channelMax : ℕ) {pool : JobQueueExecutorPool ε π} (constructed : new settings clock = .ok pool)
    (actions later : List (ExecutorAction E S)) {middle target : JobQueueExecutor ε π β}
    (only : Along step OnlyConsumers (starting config channelMax pool) (actions ++ later))
    (ran : run step (starting config channelMax pool) actions = some middle)
    (continued : run step middle later = some target) :
    target.executorPool.pool.liveCount + target.connection.published.length ≤ channelMax ∧
      (middle.connection.published.length = channelMax →
        target.executorPool.pool.liveCount = 0 ∧ target.connection.published = middle.connection.published) := by
  have fresh : pool.executors = [] := by
    obtain ⟨-, -, rfl⟩ := new_eq_ok constructed
    rfl
  obtain ⟨atMiddle, sameMax, -⟩ := budget_run only.left (budget_starting config channelMax fresh) ran
  obtain ⟨atTarget, stillMax, kept⟩ := budget_run (only.right ran) atMiddle continued
  have live := liveCount_le_openConsumers target.executorPool.pool
  have total := atTarget.total
  have bound : target.connection.channelMax = channelMax := stillMax.trans sameMax
  refine ⟨by omega, fun full => ?_⟩
  have longer := kept.length_le
  exact ⟨by omega, (kept.eq_of_length_le (by omega)).symm⟩

/-- Whatever happens on the connection, the pool is in a state its own threads could have brought about,
and each of its executors has a channel of its own that is for the connection what it is for the pool. -/
theorem pool_of_executor (config : QueueConfig) (settings : ExecutorPoolConfig ε) (clock : Clock) (channelMax : ℕ)
    {pool : JobQueueExecutorPool ε π} (constructed : new settings clock = .ok pool)
    {target : JobQueueExecutor ε π β}
    (reached : Reachable (step : _ → ExecutorAction E S → _) (starting config channelMax pool) target) :
    Reachable PoolThreads.step (.starting pool) target.executorPool ∧ target.channels.Nodup ∧
      target.executorPool.pool.executors.map (fun ex => some ex.channel) =
        target.channels.map (target.connection.channels[·]?) := by
  have fresh : pool.executors = [] := by
    obtain ⟨-, -, rfl⟩ := new_eq_ok constructed
    rfl
  have initial := shared_starting (β := β) config channelMax fresh
  have shared := reached.invariant (fun _ _ _ => shared_step) initial
  refine ⟨(refines_pool ε π β E S).reachable initial reached, shared.nodup, ?_⟩
  apply List.ext_getElem?
  intro ex
  rw [List.getElem?_map, List.getElem?_map]
  cases own : target.channels[ex]? with
  | none =>
    rw [List.getElem?_eq_none_iff, shared.length, channelsOf, List.length_map] at own
    rw [List.getElem?_eq_none own]
    rfl
  | some channel =>
    obtain ⟨state, known, read⟩ := shared.read own
    rw [channelsOf, List.getElem?_map] at known
    obtain ⟨found, inPool, rfl⟩ := Option.map_eq_some_iff.mp known
    rw [inPool, Option.map_some, Option.map_some, read]

end Runs

/-- Anything that is sent is its own encoding. -/
local instance : JsonSerializable String String := ⟨id⟩

/-- The one consumer dies while a notification takes the other channel. -/
theorem pool_of_executor_death : ∃ (pool : JobQueueExecutorPool MaxFailureEnforcer Unit)
    (target : JobQueueExecutor MaxFailureEnforcer Unit String),
    target.channels = [0] ∧ target.connection.channels = [⟨some .broker⟩, ⟨none⟩] ∧
    (Reachable PoolThreads.step (.starting pool) target.executorPool ∧ target.channels.Nodup ∧
      target.executorPool.pool.executors.map (fun ex => some ex.channel) =
        target.channels.map (target.connection.channels[·]?)) :=
  let next : ExecutorAction String String := .exec 0 true (.ok ()) false
  ⟨_, _, rfl, rfl, pool_of_executor {} ⟨"jobs", 1, maxTotalFailures 5⟩ (Stream'.const 0) 2 rfl
    ⟨[next, next, next, .sendError "a" true, .close 0 .broker], rfl⟩⟩

/-- Two channels and one consumer: when its channel dies a second notification takes the channel that has
become free, and neither the replacement nor a third notification gets one. -/
theorem consumers_and_notifications_two : ∃ (pool : JobQueueExecutorPool MaxFailureEnforcer Unit)
    (middle target : JobQueueExecutor MaxFailureEnforcer Unit String),
    new ⟨"jobs", 1, maxTotalFailures 5⟩ (Stream'.const 0) = .ok pool ∧
    middle.connection.published = [("errors", "a"), ("successes", "b")] ∧
    target.executorPool.pool.closing = false ∧ target.executorPool.activities = [[], []] ∧
    target.executorPool.pool.liveCount + target.connection.published.length ≤ 2 ∧
      (middle.connection.published.length = 2 → target.executorPool.pool.liveCount = 0 ∧
        target.connection.published = middle.connection.published) :=
  let next (activity : ℕ) : ExecutorAction String String := .exec activity true (.ok ()) false
  let actions := [next 0, next 0, next 0, .sendError "a" true, .close 0 .broker, .sendSuccess "b" true]
  let later := [.signal 0, next 1, next 1, next 1, next 1, next 1, next 1, .sendError "c" true]
  ⟨_, _, _, rfl, rfl, rfl, rfl,
    consumers_and_notifications {} ⟨"jobs", 1, maxTotalFailures 5⟩ (Stream'.const 0) 2 rfl actions later
      (by
        repeat
          refine (Along.cons_iff rfl).mpr ⟨?_, ?_⟩
          · first | trivial | exact List.mem_singleton_self 0
        exact .nil)
      rfl rfl⟩

end RabbitJobQueue.Soundness.ChannelBudget
