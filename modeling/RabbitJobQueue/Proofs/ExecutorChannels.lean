import RabbitJobQueue.Machine.Refinement
import RabbitJobQueue.Model.JobQueueExecutor
import RabbitJobQueue.Proofs.PoolThreads
import RabbitJobQueue.Soundness.PublishChannels

/-! # What a step of the executor does to its channels

The pool and the connection know of the same channels: the pool as those of its executors, the connection
as all it ever created. Each step either sends a notification, gives a consumer its channel, closes the
channel of a consumer for both sides, or touches no channel at all; so the two never disagree, and as far
as the pool is concerned the executor does nothing that the pool's own threads could not do.
-/

namespace RabbitJobQueue.Model

open Machine Connection QueueWrapper JobQueueExecutorPool Soundness.PublishChannels

namespace JobQueueExecutor

variable {ε π β E S : Type}

section Calls

variable {connection next : Connection β}

/-- What comes of asking for a channel of a queue: none is to be had, the broker refuses the declaration,
or the channel is open and the queue declared. -/
inductive Opening (connection : Connection β) (declaration : QueueDeclaration) :
    Bool → Except Throwable ChannelRef → Connection β → Prop
  | failed {accepted : Bool} (exception : Throwable) (other : exception ≠ .other "PRECONDITION_FAILED")
      (shut : ¬ (connection.isOpen = true ∧ connection.openChannels < connection.channelMax)) :
      Opening connection declaration accepted (.error exception) connection
  | refused : Opening connection declaration false (.error (.other "PRECONDITION_FAILED"))
      { connection with channels := connection.channels ++ [{ closedBy := some .broker }] }
  | opened (live : connection.isOpen = true) (free : connection.openChannels < connection.channelMax) :
      Opening connection declaration true (.ok connection.channels.length)
        { connection with
          channels := connection.channels ++ [{ closedBy := none }]
          declared := connection.declared ++ [declaration] }

theorem queueChannel_accepted (live : connection.isOpen = true)
    (free : connection.openChannels < connection.channelMax) (declaration : QueueDeclaration) :
    (queueChannel (queueDeclare · declaration true)).exec connection =
      some (.ok connection.channels.length, { connection with
        channels := connection.channels ++ [{ closedBy := none }]
        declared := connection.declared ++ [declaration] }) := by
  rw [queueChannel, Effect.exec_bind_of_ok (createChannel_free live free), Effect.exec_bind_of_ok
    (queueDeclare_accepted (isOpenChannel_new rfl) declaration)]
  rfl

theorem queueChannel_refused (live : connection.isOpen = true)
    (free : connection.openChannels < connection.channelMax) (declaration : QueueDeclaration) :
    (queueChannel (queueDeclare · declaration false)).exec connection =
      some (.error (.other "PRECONDITION_FAILED"),
        { connection with channels := connection.channels ++ [{ closedBy := some .broker }] }) := by
  rw [queueChannel, Effect.exec_bind_of_ok (createChannel_free live free), Effect.exec_bind_of_error
    (queueDeclare_refused (isOpenChannel_new rfl) declaration), modify_alloc]
  rfl

theorem queueChannel_opening {declaration : QueueDeclaration} {accepted : Bool}
    {result : Except Throwable ChannelRef}
    (ran : (queueChannel (queueDeclare · declaration accepted)).exec connection = some (result, next)) :
    Opening connection declaration accepted result next := by
  by_cases live : connection.isOpen = true
  · by_cases free : connection.openChannels < connection.channelMax
    · cases accepted with
      | true =>
        rw [queueChannel_accepted live free] at ran
        cases ran
        exact .opened live free
      | false =>
        rw [queueChannel_refused live free] at ran
        cases ran
        exact .refused
    · rw [queueChannel, Effect.exec_bind_of_ok (createChannel_full live (Nat.not_lt.mp free))] at ran
      cases ran
      exact .failed _ (by simp) fun both => free both.2
  · have created : createChannel.exec connection = some (.error .alreadyClosed, connection) := by
      rw [createChannel, Effect.exec_get_bind, if_pos (by simpa using live)]
      rfl
    rw [queueChannel, Effect.exec_bind_of_error created] at ran
    cases ran
    exact .failed _ (by simp) fun both => live both.1

/-- What comes of sending a notification. -/
inductive Sending (connection : Connection β) : Connection β → Prop
  | failed : Sending connection connection
  | refused : Sending connection
      { connection with channels := connection.channels ++ [{ closedBy := some .broker }] }
  | sent (live : connection.isOpen = true) (free : connection.openChannels < connection.channelMax)
      (declaration : QueueDeclaration) (queue : String) (body : β) : Sending connection { connection with
        channels := connection.channels ++ [{ closedBy := none }]
        declared := connection.declared ++ [declaration]
        published := connection.published ++ [(queue, body)] }

private theorem publish_sending {declaration : QueueDeclaration} {accepted : Bool} {queue : String} {body : β}
    {result : Except Throwable Unit}
    (ran : (queueChannel (queueDeclare · declaration accepted) >>= (basicPublish · queue body)).exec
      connection = some (result, next)) : Sending connection next := by
  rcases Effect.exec_bind_eq_some.mp ran with ⟨channel, middle, opened, sent⟩ | ⟨exception, failed, -⟩
  · cases queueChannel_opening opened with
    | opened live free =>
      rw [basicPublish_open (isOpenChannel_new rfl)] at sent
      cases sent
      exact .sent live free declaration queue body
  · generalize outcome : (Except.error exception : Except Throwable ChannelRef) = thrown at failed
    cases queueChannel_opening failed with
    | failed => exact .failed
    | refused => exact .refused
    | opened => contradiction

end Calls

section Statements

variable {pool next : JobQueueExecutorPool ε π} {answers : ClientAnswers} {expired : Bool} {instr : Instr}
  {result : Except Throwable (List Instr)}

def channelsOf (pool : JobQueueExecutorPool ε π) : List Channel := pool.executors.map (·.channel)

private theorem channelsOf_of_unlinked (same : next.executors.map unlinked = pool.executors.map unlinked) :
    channelsOf next = channelsOf pool := by
  have view (heap : List Executor) : heap.map (·.channel) = (heap.map unlinked).map (·.channel) := by
    rw [List.map_map]
    rfl
  rw [channelsOf, channelsOf, view, same, ← view]

private theorem createNew_channels {answer : Except Throwable ExecutorRef}
    (ran : (createNew answers).exec pool = some (answer, next)) :
    (answers.channelProvider = .ok () ∧ channelsOf next = channelsOf pool ++ [{ closedBy := none }]) ∨
      ((∃ exception, answers.channelProvider = .error exception) ∧ channelsOf next = channelsOf pool) := by
  rw [createNew, Effect.exec_modify_bind, Effect.exec_get_bind] at ran
  cases provided : answers.channelProvider with
  | error exception =>
    rw [provided] at ran
    cases ran
    exact .inr ⟨⟨exception, rfl⟩, rfl⟩
  | ok _ =>
    rw [provided] at ran
    cases ran
    exact .inl ⟨rfl, by simp [channelsOf]⟩

private theorem closeChannel_channels (pool : JobQueueExecutorPool ε π) (ex : ExecutorRef)
    (cause : CloseCause) :
    channelsOf (pool.closeChannel ex cause) = (channelsOf pool).modify ex (·.close cause) := by
  rw [channelsOf, JobQueueExecutorPool.closeChannel, update_executors]
  exact map_modify fun _ => rfl

private theorem stopExecutor_channels (pool : JobQueueExecutorPool ε π) (ex : ExecutorRef) :
    channelsOf (pool.stopExecutor ex) = (channelsOf pool).modify ex (·.close .executorStop) := by
  rw [channelsOf, JobQueueExecutorPool.stopExecutor, update_executors]
  exact map_modify fun _ => rfl

/-- The shutdown signal of a consumer finds its channel closed. -/
theorem kill_channels {threads : PoolThreads ε π} {ex : ExecutorRef} {cause : CloseCause}
    (due : threads.dueSignal ex = some cause) :
    channelsOf (threads.pool.kill ex cause) = channelsOf threads.pool := by
  obtain ⟨executor, known, due⟩ := Option.bind_eq_some_iff.mp due
  have closed : executor.channel.closedBy = some cause := by
    split at due
    · exact due
    · contradiction
  have killed : channelsOf (threads.pool.kill ex cause) =
      (channelsOf threads.pool).modify ex (·.close cause) := by
    rw [channelsOf, JobQueueExecutorPool.kill, update_executors]
    exact map_modify fun _ => rfl
  rw [killed]
  apply modify_eq_of_fixed
  intro channel read
  rw [channelsOf, List.getElem?_map, known] at read
  cases read
  exact Channel.close_of_closed (by simp [Channel.isOpen, closed]) cause

private theorem abort_channels (pool : JobQueueExecutorPool ε π) :
    channelsOf pool.abort = (channelsOf pool).map (·.close .connectionAbort) := by
  simp only [channelsOf, JobQueueExecutorPool.abort, List.map_map]
  rfl

/-- The statement creates a channel or closes one. -/
def touchesChannels : Instr → Bool
  | .createNew | .stop _ | .shutdownCB => true
  | _ => false

private theorem code_channels [ExecutorFailureEnforcer ε] (other : touchesChannels instr = false)
    (ran : (instr.code answers expired).exec pool = some (result, next)) :
    channelsOf next = channelsOf pool := by
  cases Instr.code_alters ran with
  | relinks instr same => exact channelsOf_of_unlinked same
  | subscribes ref opened same =>
    rw [channelsOf, same]
    exact map_modify_of_same fun _ => rfl
  | constructs | stops | aborts => contradiction

end Statements

/-- The executors of the pool use channels of the connection, each its own; a channel closed for one side
is closed for the other. -/
structure Shared (executor : JobQueueExecutor ε π β) : Prop where
  length : executor.channels.length = (channelsOf executor.executorPool.pool).length
  agree : ∀ (ex : ExecutorRef) (channel : ChannelRef) (state : Channel),
    executor.channels[ex]? = some channel →
    (channelsOf executor.executorPool.pool)[ex]? = some state →
    executor.connection.channels[channel]? = some state
  nodup : executor.channels.Nodup
  within : executor.connection.openChannels ≤ executor.connection.channelMax

variable {executor next : JobQueueExecutor ε π β}

theorem Shared.read (shared : Shared executor) {ex : ExecutorRef} {channel : ChannelRef}
    (own : executor.channels[ex]? = some channel) : ∃ state,
      (channelsOf executor.executorPool.pool)[ex]? = some state ∧
      executor.connection.channels[channel]? = some state := by
  obtain ⟨place, -⟩ := List.getElem?_eq_some_iff.mp own
  have state := List.getElem?_eq_getElem (shared.length ▸ place)
  exact ⟨_, state, shared.agree ex channel _ own state⟩

private theorem Shared.inside (shared : Shared executor) {channel : ChannelRef}
    (member : channel ∈ executor.channels) : channel < executor.connection.channels.length := by
  obtain ⟨ex, own⟩ := List.mem_iff_getElem?.mp member
  obtain ⟨state, -, known⟩ := shared.read own
  exact (List.getElem?_eq_some_iff.mp known).1

/-- An open channel of the connection is open for the pool. -/
theorem Shared.isOpen (shared : Shared executor) {ex : ExecutorRef} {channel : ChannelRef}
    (own : executor.channels[ex]? = some channel) :
    executor.executorPool.pool.isOpen ex = executor.connection.isOpenChannel channel := by
  obtain ⟨state, known, read⟩ := shared.read own
  rw [channelsOf, List.getElem?_map] at known
  obtain ⟨found, inPool, rfl⟩ := Option.map_eq_some_iff.mp known
  rw [JobQueueExecutorPool.isOpen, Connection.isOpenChannel, inPool, read]
  rfl

/-- What a step can do to the channels: a notification is sent or not, a consumer gets a channel, the
channel of a consumer is closed, or the whole connection is. -/
inductive Moves (executor : JobQueueExecutor ε π β) : JobQueueExecutor ε π β → Prop
  | sends {connection : Connection β} {threads : PoolThreads ε π}
    (sending : Sending executor.connection connection)
      (same : channelsOf threads.pool = channelsOf executor.executorPool.pool) :
      Moves executor { executor with connection, executorPool := threads }
  | creates {threads : PoolThreads ε π} (declaration : QueueDeclaration)
      (live : executor.connection.isOpen = true)
      (free : executor.connection.openChannels < executor.connection.channelMax)
      (more : channelsOf threads.pool = channelsOf executor.executorPool.pool ++ [{ closedBy := none }]) :
      Moves executor { executor with
        connection := { executor.connection with
          channels := executor.connection.channels ++ [{ closedBy := none }]
          declared := executor.connection.declared ++ [declaration] }
        executorPool := threads
        channels := executor.channels ++ [executor.connection.channels.length] }
  | closes {threads : PoolThreads ε π} {ex : ExecutorRef} {channel : ChannelRef} (cause : CloseCause)
      (own : executor.channels[ex]? = some channel)
      (closed : channelsOf threads.pool = (channelsOf executor.executorPool.pool).modify ex (·.close cause)) :
      Moves executor { executor with
        connection := executor.connection.closeChannel channel cause, executorPool := threads }
  | aborts {threads : PoolThreads ε π}
      (closed : channelsOf threads.pool =
        (channelsOf executor.executorPool.pool).map (·.close .connectionAbort)) :
      Moves executor { executor with connection := executor.connection.abort, executorPool := threads }

/-- Nothing but the pool has moved, and its channels have not. -/
theorem Moves.pool {threads : PoolThreads ε π}
    (same : channelsOf threads.pool = channelsOf executor.executorPool.pool) :
    Moves executor { executor with executorPool := threads } := .sends .failed same

theorem openChannels_alloc {channel : Channel} (connection : Connection β) :
    ({ connection with channels := connection.channels ++ [channel] } : Connection β).openChannels =
      connection.openChannels + if channel.isOpen then 1 else 0 := countP_alloc

/-- One more channel that no executor uses. -/
theorem Shared.more (shared : Shared executor) {channel : Channel} {connection : Connection β}
    (channels : connection.channels = executor.connection.channels ++ [channel])
    (within : connection.openChannels ≤ connection.channelMax) :
    Shared { executor with connection } where
  length := shared.length
  agree ex ref state read known := by
    rw [channels]
    exact getElem?_alloc_of_some (shared.agree ex ref state read known)
  nodup := shared.nodup
  within := within

private theorem Shared.send (shared : Shared executor) {connection : Connection β}
    (sending : Sending executor.connection connection) : Shared { executor with connection } := by
  have within := shared.within
  cases sending with
  | failed => exact shared
  | refused =>
    refine shared.more rfl ?_
    rw [openChannels_alloc]
    exact within
  | sent live free declaration queue body =>
    refine shared.more rfl ?_
    change (List.countP _ _) ≤ _
    rw [countP_alloc]
    exact free

/-- The pool has moved and its channels have not. -/
theorem Shared.withPool (shared : Shared executor) {threads : PoolThreads ε π}
    (same : channelsOf threads.pool = channelsOf executor.executorPool.pool) :
    Shared { executor with executorPool := threads } where
  length := by rw [same]; exact shared.length
  agree := by rw [same]; exact shared.agree
  nodup := shared.nodup
  within := shared.within

/-- A channel created for a new executor. -/
theorem Shared.create (shared : Shared executor) {threads : PoolThreads ε π} {declaration : QueueDeclaration}
    (free : executor.connection.openChannels < executor.connection.channelMax)
    (more : channelsOf threads.pool = channelsOf executor.executorPool.pool ++ [{ closedBy := none }]) :
    Shared { executor with
      connection := { executor.connection with
        channels := executor.connection.channels ++ [{ closedBy := none }]
        declared := executor.connection.declared ++ [declaration] }
      executorPool := threads
      channels := executor.channels ++ [executor.connection.channels.length] } where
  length := by simp [more, shared.length]
  agree ex channel state read known := by
    dsimp only at read known ⊢
    rw [more] at known
    rcases getElem?_alloc_eq_some.mp read with old | ⟨rfl, rfl⟩
    · rcases getElem?_alloc_eq_some.mp known with same | ⟨here, -⟩
      · exact getElem?_alloc_of_some (shared.agree ex channel state old same)
      · obtain ⟨place, -⟩ := List.getElem?_eq_some_iff.mp old
        rw [shared.length, here] at place
        exact absurd place (Nat.lt_irrefl _)
    · rw [shared.length, List.getElem?_concat_length] at known
      cases known
      exact List.getElem?_concat_length ..
  nodup := by
    rw [List.nodup_append]
    refine ⟨shared.nodup, by simp, ?_⟩
    rintro channel member _ fresh rfl
    rw [List.mem_singleton] at fresh
    exact Nat.lt_irrefl _ (fresh ▸ shared.inside member)
  within := by
    change (List.countP _ _) ≤ _
    rw [countP_alloc]
    exact free

private theorem openChannels_closeChannel_le (connection : Connection β) (channel : ChannelRef)
    (cause : CloseCause) :
    (connection.closeChannel channel cause).openChannels ≤ connection.openChannels := by
  rw [Connection.openChannels, Connection.openChannels, Connection.closeChannel]
  dsimp only
  cases read : connection.channels[channel]? with
  | none =>
    apply Nat.le_of_eq
    rw [modify_eq_of_fixed (by simp [read])]
  | some state =>
    have count := countP_modify (·.isOpen) (·.close cause) read
    simp only [Channel.isOpen_close, Bool.false_eq_true, if_false] at count
    omega

/-- A channel is closed for both sides. -/
theorem Shared.close (shared : Shared executor) {threads : PoolThreads ε π} {ex : ExecutorRef}
    {channel : ChannelRef} {cause : CloseCause} (own : executor.channels[ex]? = some channel)
    (closed : channelsOf threads.pool = (channelsOf executor.executorPool.pool).modify ex (·.close cause)) :
    Shared { executor with
      connection := executor.connection.closeChannel channel cause, executorPool := threads } where
  length := by rw [closed, List.length_modify]; exact shared.length
  agree other ref state read known := by
    dsimp only at read known ⊢
    rw [closed] at known
    obtain ⟨before, readBefore, change⟩ := getElem?_modify_eq_some.mp known
    have agreed := shared.agree other ref before read readBefore
    refine getElem?_modify_eq_some.mpr ⟨before, agreed, change.trans ?_⟩
    by_cases here : ex = other
    · subst here
      cases own.symm.trans read
      rw [if_pos rfl, if_pos rfl]
    · rw [if_neg here, if_neg]
      rintro rfl
      obtain ⟨inside, -⟩ := List.getElem?_eq_some_iff.mp own
      exact here ((List.getElem?_inj inside shared.nodup).mp (own.trans read.symm))
  nodup := shared.nodup
  within := Nat.le_trans (openChannels_closeChannel_le ..) shared.within

/-- A channel that no executor uses is closed. -/
theorem Shared.closeOther (shared : Shared executor) {channel : ChannelRef}
    (unused : channel ∉ executor.channels)
    (cause : CloseCause) :
    Shared { executor with connection := executor.connection.closeChannel channel cause } where
  length := shared.length
  agree ex ref state read known := by
    dsimp only at read known ⊢
    rw [Connection.closeChannel]
    dsimp only
    rw [getElem?_modify_other]
    · exact shared.agree ex ref state read known
    · rintro rfl
      exact unused (List.mem_of_getElem? read)
  nodup := shared.nodup
  within := Nat.le_trans (openChannels_closeChannel_le ..) shared.within

/-- The connection is aborted. -/
theorem Shared.abort (shared : Shared executor) {threads : PoolThreads ε π}
    (closed : channelsOf threads.pool =
      (channelsOf executor.executorPool.pool).map (·.close .connectionAbort)) :
    Shared { executor with connection := executor.connection.abort, executorPool := threads } where
  length := by rw [closed, List.length_map]; exact shared.length
  agree ex channel state read known := by
    dsimp only at read known ⊢
    rw [closed, List.getElem?_map] at known
    obtain ⟨before, readBefore, same⟩ := Option.map_eq_some_iff.mp known
    rw [Connection.abort, List.getElem?_map, shared.agree ex channel before read readBefore, ← same]
    rfl
  nodup := shared.nodup
  within := by
    have none : executor.connection.abort.openChannels = 0 := by
      rw [Connection.openChannels, List.countP_eq_zero]
      intro channel member
      obtain ⟨before, -, rfl⟩ := List.mem_map.mp member
      simp
    rw [none]
    exact Nat.zero_le _

/-- The invariant is kept. -/
theorem Moves.shared (moves : Moves executor next) (shared : Shared executor) : Shared next := by
  cases moves with
  | sends sending same => exact (shared.send sending).withPool same
  | creates declaration live free more => exact shared.create free more
  | closes cause own closed => exact shared.close own closed
  | aborts closed => exact shared.abort closed

section Steps

variable [ExecutorFailureEnforcer ε] [JsonSerializable E β] [JsonSerializable S β]
  {action : ExecutorAction E S}

private theorem createNew_moves {activity : ℕ} {accepted expired : Bool}
    {basicConsume : Except Throwable Unit}
    {provided : Except Throwable ChannelRef} {connection : Connection β} {threads : PoolThreads ε π}
    (first : (executor.executorPool.activities[activity]?).bind (·.head?) = some .createNew)
    (opened : (QueueWrapper.dispatchQueue executor.config accepted).exec executor.connection =
      some (provided, connection))
    (moved : executor.executorPool.exec activity
      { channelProvider := provided.map fun _ => (), basicConsume } expired = some threads) :
    Moves executor { executor with
      connection, executorPool := threads, channels := executor.channels ++ provided.toOption.toList } := by
  obtain ⟨instr, rest, result, read, -, ran, -⟩ := PoolThreads.exec_eq_some.mp moved
  rw [read] at first
  cases first
  obtain ⟨_, create, -⟩ := Effect.of_exec_bind_pure ran
  have channels := createNew_channels create
  cases queueChannel_opening opened with
  | failed exception =>
    obtain ⟨failed, -⟩ | ⟨-, same⟩ := channels
    · cases failed
    · simpa [Except.toOption] using Moves.pool same
  | refused =>
    obtain ⟨failed, -⟩ | ⟨-, same⟩ := channels
    · cases failed
    · simpa [Except.toOption] using Moves.sends .refused same
  | opened live free =>
    obtain ⟨-, more⟩ | ⟨⟨exception, failed⟩, -⟩ := channels
    · exact .creates _ live free more
    · cases failed

private theorem exec_moves {activity : ℕ} {accepted expired : Bool} {basicConsume : Except Throwable Unit}
    (shared : Shared executor)
    (ran : executor.exec activity accepted basicConsume expired = some next) : Moves executor next := by
  rw [JobQueueExecutor.exec] at ran
  split at ran
  · next first =>
    obtain ⟨⟨provided, connection⟩, opened, ran⟩ := Option.bind_eq_some_iff.mp ran
    obtain ⟨threads, moved, same⟩ := Option.map_eq_some_iff.mp ran
    subst same
    exact createNew_moves first opened moved
  · next other =>
    obtain ⟨threads, moved, same⟩ := Option.map_eq_some_iff.mp ran
    subst same
    obtain ⟨instr, rest, result, read, -, ran, -⟩ := PoolThreads.exec_eq_some.mp moved
    rw [read] at other ⊢
    dsimp only [Option.bind_some, List.head?_cons] at other ⊢
    by_cases touches : touchesChannels instr = true
    · cases instr with
      | createNew => exact absurd rfl other
      | stop ex =>
        have stopped : executor.executorPool.pool.stopExecutor ex = threads.pool :=
          congrArg Prod.snd (Option.some.inj ran)
        have closed := stopped ▸ stopExecutor_channels executor.executorPool.pool ex
        dsimp only
        cases own : executor.channels[ex]? with
        | some channel => exact .closes .executorStop own closed
        | none =>
          refine .pool (closed.trans (modify_eq_of_fixed ?_))
          intro state known
          obtain ⟨inside, -⟩ := List.getElem?_eq_some_iff.mp known
          rw [List.getElem?_eq_none_iff, shared.length] at own
          omega
      | shutdownCB =>
        have aborted : executor.executorPool.pool.abort = threads.pool :=
          congrArg Prod.snd (Option.some.inj ran)
        exact .aborts (aborted ▸ abort_channels executor.executorPool.pool)
      | _ => contradiction
    · rw [Bool.not_eq_true] at touches
      have same := Moves.pool (code_channels touches ran)
      cases instr <;> first | contradiction | exact same

/-- A step closes a channel that no consumer uses, or it is one of the moves. -/
theorem step_moves (shared : Shared executor) (stepped : executor.step action = some next) :
    Moves executor next ∨ ∃ channel cause, action = .close channel cause ∧ channel ∉ executor.channels ∧
      next = { executor with connection := executor.connection.closeChannel channel cause } := by
  cases action with
  | sendError err accepted =>
    obtain ⟨⟨result, connection⟩, sent, rfl⟩ := Option.map_eq_some_iff.mp stepped
    exact .inl (.sends (publish_sending sent) rfl)
  | sendSuccess msg accepted =>
    obtain ⟨⟨result, connection⟩, sent, rfl⟩ := Option.map_eq_some_iff.mp stepped
    exact .inl (.sends (publish_sending sent) rfl)
  | shutdown blocking =>
    cases stepped
    exact .inl (.pool rfl)
  | close channel cause =>
    rw [JobQueueExecutor.step] at stepped
    split at stepped
    · cases stepped
      cases place : executor.channels.idxOf? channel with
      | none =>
        rw [List.idxOf?_eq_none_iff] at place
        exact .inr ⟨channel, cause, rfl, place, rfl⟩
      | some ex =>
        obtain ⟨inside, here, -⟩ := List.idxOf?_eq_some_iff.mp place
        exact .inl (.closes cause (List.getElem?_eq_some_iff.mpr ⟨inside, here⟩)
          (closeChannel_channels executor.executorPool.pool ex cause))
    · contradiction
  | signal ex =>
    obtain ⟨threads, signalled, rfl⟩ := Option.map_eq_some_iff.mp stepped
    obtain ⟨cause, due, rfl⟩ := Option.map_eq_some_iff.mp signalled
    exact .inl (.pool (kill_channels due))
  | exec activity accepted basicConsume expired => exact .inl (exec_moves shared stepped)

theorem shared_step (shared : Shared executor) (stepped : executor.step action = some next) : Shared next := by
  rcases step_moves shared stepped with moves | ⟨channel, cause, -, unused, rfl⟩
  · exact moves.shared shared
  · exact shared.closeOther unused cause

/-- Seen from the pool, a step of the executor is a step of the pool's threads, or none. -/
theorem step_simulated (shared : Shared executor) (stepped : executor.step action = some next) :
    next.executorPool = executor.executorPool ∨
      ∃ move, executor.executorPool.step move = some next.executorPool := by
  cases action with
  | sendError err accepted =>
    obtain ⟨_, -, rfl⟩ := Option.map_eq_some_iff.mp stepped
    exact .inl rfl
  | sendSuccess msg accepted =>
    obtain ⟨_, -, rfl⟩ := Option.map_eq_some_iff.mp stepped
    exact .inl rfl
  | shutdown blocking =>
    cases stepped
    exact .inr ⟨.callStop blocking true, rfl⟩
  | close channel cause =>
    rw [JobQueueExecutor.step] at stepped
    split at stepped
    · next allowed =>
      cases stepped
      cases place : executor.channels.idxOf? channel with
      | none => exact .inl rfl
      | some ex =>
        obtain ⟨inside, here, -⟩ := List.idxOf?_eq_some_iff.mp place
        have open' := shared.isOpen (List.getElem?_eq_some_iff.mpr ⟨inside, here⟩)
        exact .inr ⟨.close ex cause, if_pos (by rw [open']; exact allowed)⟩
    · contradiction
  | signal ex =>
    obtain ⟨threads, signalled, rfl⟩ := Option.map_eq_some_iff.mp stepped
    exact .inr ⟨.signal ex, signalled⟩
  | exec activity accepted basicConsume expired =>
    change executor.exec activity accepted basicConsume expired = some next at stepped
    rw [JobQueueExecutor.exec] at stepped
    split at stepped
    · obtain ⟨_, -, stepped⟩ := Option.bind_eq_some_iff.mp stepped
      obtain ⟨threads, moved, rfl⟩ := Option.map_eq_some_iff.mp stepped
      exact .inr ⟨.exec activity _ expired, moved⟩
    · obtain ⟨threads, moved, rfl⟩ := Option.map_eq_some_iff.mp stepped
      exact .inr ⟨.exec activity _ expired, moved⟩

variable (ε π β E S) in
/-- The executor refines its pool. -/
theorem refines_pool : Refines (step : JobQueueExecutor ε π β → ExecutorAction E S → _) PoolThreads.step
    (·.executorPool) Shared where
  kept _ _ _ := shared_step
  simulated _ _ _ := step_simulated

end Steps

theorem shared_starting (config : QueueConfig) (channelMax : ℕ) {pool : JobQueueExecutorPool ε π}
    (fresh : pool.executors = []) : Shared (starting config channelMax pool : JobQueueExecutor ε π β) where
  length := by simp [starting, channelsOf, PoolThreads.starting, fresh]
  agree ex channel state read := by simp [starting] at read
  nodup := List.nodup_nil
  within := Nat.zero_le _

end JobQueueExecutor

end RabbitJobQueue.Model
