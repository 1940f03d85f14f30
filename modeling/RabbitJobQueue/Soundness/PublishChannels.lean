import RabbitJobQueue.Machine.Heap
import RabbitJobQueue.Machine.Run
import RabbitJobQueue.Model.QueueWrapper

/-! # The channels that publishing takes up

Every publishing operation creates a channel, and none closes it. A call that gets through therefore
leaves one channel more open than before, until the connection has no channel left and every further
call fails. Only a call whose queue the broker refuses to declare takes up no channel, because the
broker closes it.
-/

namespace RabbitJobQueue.Soundness.PublishChannels

open Machine Model Model.Connection Model.QueueWrapper

variable {β : Type} {connection next : Connection β} {channel : ChannelRef}

/-- What a publishing operation comes to on a live connection. -/
inductive Outcome (connection : Connection β) (accepted : Bool) :
    Except Throwable Unit → Connection β → Prop
  | noChannel (full : connection.channelMax ≤ connection.openChannels) :
      Outcome connection accepted (.error .nullPointer) connection
  | refused (free : connection.openChannels < connection.channelMax) (answer : accepted = false) :
      Outcome connection accepted (.error (.other "PRECONDITION_FAILED"))
        { connection with channels := connection.channels ++ [{ closedBy := some .broker }] }
  | published (free : connection.openChannels < connection.channelMax) (answer : accepted = true)
      (declaration : QueueDeclaration) (queue : String) (body : β) :
      Outcome connection accepted (.ok ()) { connection with
        channels := connection.channels ++ [{ closedBy := none }]
        declared := connection.declared ++ [declaration]
        published := connection.published ++ [(queue, body)] }

theorem createChannel_free (live : connection.isOpen = true)
    (free : connection.openChannels < connection.channelMax) :
    createChannel.exec connection = some (.ok (some connection.channels.length),
      { connection with channels := connection.channels ++ [{ closedBy := none }] }) := by
  rw [createChannel]
  rw [Effect.exec_get_bind, if_neg (by simp [live]), if_pos free]
  rfl

theorem createChannel_full (live : connection.isOpen = true)
    (full : connection.channelMax ≤ connection.openChannels) :
    createChannel.exec connection = some (.ok none, connection) := by
  rw [createChannel]
  rw [Effect.exec_get_bind, if_neg (by simp [live]), if_neg (Nat.not_lt.mpr full)]
  rfl

theorem queueDeclare_accepted (opened : connection.isOpenChannel channel = true)
    (declaration : QueueDeclaration) : (queueDeclare channel declaration true).exec connection =
      some (.ok (), { connection with declared := connection.declared ++ [declaration] }) := by
  rw [queueDeclare]
  rw [Effect.exec_get_bind, if_neg (by simp [opened]), if_pos rfl]
  rfl

theorem queueDeclare_refused (opened : connection.isOpenChannel channel = true)
    (declaration : QueueDeclaration) : (queueDeclare channel declaration false).exec connection =
      some (.error (.other "PRECONDITION_FAILED"),
        { connection with channels := connection.channels.modify channel (·.close .broker) }) := by
  rw [queueDeclare]
  rw [Effect.exec_get_bind, if_neg (by simp [opened]), if_neg (by decide)]
  rfl

theorem basicPublish_open (opened : connection.isOpenChannel channel = true) (queue : String) (body : β) :
    (basicPublish channel queue body).exec connection =
      some (.ok (), { connection with published := connection.published ++ [(queue, body)] }) := by
  rw [basicPublish]
  rw [Effect.exec_get_bind, if_pos opened]
  rfl

/-- A channel that has just been created is open. -/
theorem isOpenChannel_new {channels : List Channel}
    (same : connection.channels = channels ++ [{ closedBy := none }]) :
    connection.isOpenChannel channels.length = true := by
  rw [isOpenChannel, same, List.getElem?_concat_length]
  rfl

/-- The three operations are one: create a channel, declare the queue on it, publish the message. -/
theorem queueChannel_spec (live : connection.isOpen = true) (declaration : QueueDeclaration)
    (accepted : Bool) (queue : String) (body : β) : ∃ result next,
    (queueChannel (queueDeclare · declaration accepted) >>= (basicPublish · queue body)).exec connection =
      some (result, next) ∧ Outcome connection accepted result next := by
  rw [queueChannel]
  by_cases free : connection.openChannels < connection.channelMax
  · have created := createChannel_free live free
    cases accepted with
    | true =>
      refine ⟨_, _, ?_, .published free rfl declaration queue body⟩
      rw [Effect.exec_bind_of_ok (Effect.exec_bind_of_ok created |>.trans
        (Effect.exec_bind_of_ok (queueDeclare_accepted (isOpenChannel_new rfl) declaration)))]
      exact basicPublish_open (isOpenChannel_new rfl) queue body
    | false =>
      refine ⟨_, _, ?_, .refused free rfl⟩
      rw [Effect.exec_bind_of_error (Effect.exec_bind_of_ok created |>.trans
        (Effect.exec_bind_of_error (queueDeclare_refused (isOpenChannel_new rfl) declaration)))]
      rw [modify_alloc]
      rfl
  · have full := Nat.not_lt.mp free
    exact ⟨_, _, Effect.exec_bind_of_error (Effect.exec_bind_of_ok (createChannel_full live full)),
      .noChannel full⟩

/-- What is left of the connection, and how many of its channels are in use. -/
theorem Outcome.openChannels {accepted : Bool} {result : Except Throwable Unit}
    (outcome : Outcome connection accepted result next) :
    next.isOpen = connection.isOpen ∧ next.channelMax = connection.channelMax ∧
      next.openChannels = connection.openChannels +
        if accepted && decide (connection.openChannels < connection.channelMax) then 1 else 0 := by
  cases outcome with
  | noChannel full =>
    rw [decide_eq_false (Nat.not_lt.mpr full), Bool.and_false, if_neg Bool.false_ne_true]
    exact ⟨rfl, rfl, rfl⟩
  | refused free answer =>
    refine ⟨rfl, rfl, ?_⟩
    rw [Connection.openChannels, countP_alloc, answer]
    rfl
  | published free answer declaration queue body =>
    refine ⟨rfl, rfl, ?_⟩
    rw [Connection.openChannels, countP_alloc, answer, decide_eq_true free]
    rfl

variable {J E S : Type} [JsonSerializable J β] [JsonSerializable E β] [JsonSerializable S β]
  {config : QueueConfig} {calls : List (PublishCall J E S)} {call : PublishCall J E S}

private theorem code_spec (config : QueueConfig) (live : connection.isOpen = true)
    (call : PublishCall J E S) :
    ∃ result next, (call.code config).exec connection = some (result, next) ∧
      Outcome connection call.accepted result next := by
  cases call with
  | dispatch job accepted => exact queueChannel_spec live _ accepted _ _
  | sendError err accepted => exact queueChannel_spec live _ accepted _ _
  | sendSuccess msg accepted => exact queueChannel_spec live _ accepted _ _

/-- Every call comes back, with the connection its outcome tells. -/
theorem step_outcome (live : connection.isOpen = true)
    (stepped : call.step config connection = some next) :
    ∃ result, Outcome connection call.accepted result next := by
  obtain ⟨result, after, ran, outcome⟩ := code_spec config live call
  rw [PublishCall.step, ran] at stepped
  cases stepped
  exact ⟨result, outcome⟩

/-- The channels in use after a sequence of calls: one more for every call that the broker does not
refuse, up to the last one. -/
theorem openChannels_run (live : connection.isOpen = true)
    (within : connection.openChannels ≤ connection.channelMax)
    (ran : run (PublishCall.step config) connection calls = some next) :
    next.openChannels =
      min connection.channelMax (connection.openChannels + calls.countP (·.accepted)) := by
  induction calls generalizing connection with
  | nil => cases ran; simp [within]
  | cons call rest ih =>
    obtain ⟨middle, stepped, continued⟩ := run_cons_eq_some.mp ran
    obtain ⟨result, outcome⟩ := step_outcome live stepped
    obtain ⟨open', same, count⟩ := outcome.openChannels
    have more := ih (open'.trans live) ?_ continued
    · rw [more, same, count, List.countP_cons]
      cases call.accepted <;> by_cases free : connection.openChannels < connection.channelMax <;>
        simp [free] <;> omega
    · rw [count, same]
      split
      · next takes =>
        rw [Bool.and_eq_true, decide_eq_true_iff] at takes
        exact takes.2
      · exact within

/-- The call leaves as many channels open as it finds, and does not fail for lack of one. -/
def KeepsChannels (config : QueueConfig) (connection : Connection β) (call : PublishCall J E S) : Prop :=
  ∀ result next, (call.code config).exec connection = some (result, next) →
    next.openChannels = connection.openChannels ∧ result ≠ .error .nullPointer

/-- With a channel left, a call keeps the channels exactly if it is refused. -/
theorem keepsChannels_iff {result : Except Throwable Unit}
    (free : connection.openChannels < connection.channelMax)
    (ran : (call.code config).exec connection = some (result, next))
    (outcome : Outcome connection call.accepted result next) :
    KeepsChannels config connection call ↔ call.accepted = false := by
  constructor
  · intro keeps
    have count := outcome.openChannels.2.2
    rw [(keeps result next ran).1, decide_eq_true free, Bool.and_true] at count
    by_contra accepted
    rw [if_pos (Bool.not_eq_false _ ▸ accepted)] at count
    omega
  · intro refused other after same
    cases ran.symm.trans same
    refine ⟨?_, ?_⟩
    · rw [outcome.openChannels.2.2, refused]
      rfl
    · cases outcome with
      | noChannel full => omega
      | refused free answer => simp
      | published free answer => rw [refused] at answer; contradiction

/-- After a sequence of calls the next one fails for lack of a channel exactly if the calls that were
not refused have used up the free ones. -/
theorem lacksChannel_iff (live : connection.isOpen = true)
    (within : connection.openChannels ≤ connection.channelMax)
    (ran : run (PublishCall.step config) connection calls = some next) (call : PublishCall J E S) :
    (call.code config).exec next = some (.error .nullPointer, next) ↔
      connection.channelMax ≤ connection.openChannels + calls.countP (·.accepted) := by
  have kept : next.isOpen = true ∧ next.channelMax = connection.channelMax := by
    refine run_invariant (motive := fun later : Connection β => later.isOpen = true ∧
      later.channelMax = connection.channelMax) ?_ ⟨live, rfl⟩ ran
    rintro source call target ⟨open', same⟩ stepped
    obtain ⟨result, outcome⟩ := step_outcome open' stepped
    exact ⟨outcome.openChannels.1.trans open', outcome.openChannels.2.1.trans same⟩
  obtain ⟨result, after, code, outcome⟩ := code_spec config kept.1 call
  have count := openChannels_run live within ran
  rw [code]
  cases outcome with
  | noChannel full =>
    rw [kept.2] at full
    exact iff_of_true rfl (by omega)
  | refused free answer =>
    rw [kept.2] at free
    exact iff_of_false (by simp) (by omega)
  | published free answer =>
    rw [kept.2] at free
    exact iff_of_false (by simp) (by omega)

/-- A sequence of calls keeps the number of open channels, and never lacks one, if and only if the
broker refuses every one of them. -/
theorem keepsChannels_iff_refused (config : QueueConfig) (connection : Connection β)
    (calls : List (PublishCall J E S)) (live : connection.isOpen = true)
    (free : connection.openChannels < connection.channelMax) :
    Along (PublishCall.step config) (KeepsChannels config) connection calls ↔
      ∀ call ∈ calls, call.accepted = false := by
  induction calls generalizing connection with
  | nil => exact ⟨fun _ _ member => absurd member List.not_mem_nil, fun _ => .nil⟩
  | cons call rest ih =>
    obtain ⟨result, next, ran, outcome⟩ := code_spec config live call
    have stepped : call.step config connection = some next := by rw [PublishCall.step, ran]; rfl
    obtain ⟨open', same, count⟩ := outcome.openChannels
    rw [Along.cons_iff stepped, keepsChannels_iff free ran outcome, List.forall_mem_cons]
    refine and_congr_right fun refused => ih next (open'.trans live) ?_
    rw [count, refused, same]
    exact free

/-- Anything that is published is its own encoding. -/
local instance : JsonSerializable String String := ⟨id⟩

/-- A queue that exists with another time limit, and one free channel. -/
theorem keepsChannels_iff_refused_twice :
    Along (PublishCall.step {}) (KeepsChannels {}) ({ channelMax := 1 } : Connection String)
        [(.dispatch "a" false : PublishCall String String String), .dispatch "b" false] ↔
      ∀ call ∈ [(.dispatch "a" false : PublishCall String String String), .dispatch "b" false],
        call.accepted = false :=
  keepsChannels_iff_refused {} { channelMax := 1 } [.dispatch "a" false, .dispatch "b" false] rfl (by decide)

/-- With one free channel the second job cannot be dispatched. -/
theorem second_dispatch_fails :
    ¬ ∀ (channelMax : ℕ) (calls : List (PublishCall String String String)), 0 < channelMax →
      Along (PublishCall.step {}) (KeepsChannels {}) ({ channelMax } : Connection String) calls := by
  intro claim
  have second := claim 1 [.dispatch "a" true, .dispatch "b" true] (by decide) [.dispatch "a" true]
    (.dispatch "b" true) [] _ rfl rfl
  exact (second _ _ rfl).2 rfl

end RabbitJobQueue.Soundness.PublishChannels
