import RabbitJobQueue.Proofs.ThreadRefinement
import RabbitJobQueue.Soundness.UnstartedJobs

/-! # Whether a graceful stop loses acknowledgements

`stop` closes the channels before it waits for the jobs. A job that is in progress when its channel
is closed runs on to its end, and when it has returned the acknowledgement throws: the message has
gone back to the queue already. Graceful stopping keeps the acknowledgements exactly as long as no
such job comes back in time.
-/

namespace RabbitJobQueue.Soundness.GracefulStop

open Machine Model Model.JobQueue

variable {ε β δ η : Type} {fromJson : β → Except Throwable δ}
  {queue next called final source target : JobQueue ε β δ η} {ref : DeliveryRef}
  {delivery after : Delivery β δ} {action : JobQueueAction β η} {ex : ExecutorRef}

/-- The handlers of the delivery's job have run to normal completion within the time limit. -/
def InTime (queue : JobQueue ε β δ η) (ref : DeliveryRef) : Prop :=
  ∃ delivery, queue.deliveries[ref]? = some delivery ∧ delivery.timedOut = false ∧
    Answered queue ref delivery .normal

/-- Every delivery whose channel was open when `stop` was called and whose job has come back in time
has been acknowledged. -/
def Acknowledged (called final : JobQueue ε β δ η) : Prop :=
  ∀ (ref : DeliveryRef) (delivery : Delivery β δ), final.deliveries[ref]? = some delivery →
    called.pool.isOpen delivery.channel = true → InTime final ref → delivery.acks = 1

/-- Time does not take back a time-out. -/
theorem Advance.timedOut (advance : Advance fromJson queue next ref delivery after)
    (timedOut : delivery.timedOut = true) : after.timedOut = true := by
  cases advance <;> first | exact timedOut | rfl

/-- The delivery is still there, has been timed out if it was before, and has lost no
acknowledgement. -/
def Lasting (ref : DeliveryRef) (before : Delivery β δ) (queue : JobQueue ε β δ η) : Prop :=
  ∃ delivery, queue.deliveries[ref]? = some delivery ∧ SameDelivery before delivery ∧
    before.acks ≤ delivery.acks ∧ (before.timedOut = true → delivery.timedOut = true)

/-- The channel is closed, and the delivery has not been acknowledged. -/
def CutOff (ref : DeliveryRef) (queue : JobQueue ε β δ η) : Prop :=
  ∃ delivery, queue.deliveries[ref]? = some delivery ∧
    delivery.channel < queue.pool.executors.length ∧
    queue.pool.isOpen delivery.channel = false ∧ delivery.acks = 0

/-- The channel is closed, and the delivery has not come, has not been looked at, or has found it
closed. -/
def TurnedAway (ref : DeliveryRef) (ex : ExecutorRef) (queue : JobQueue ε β δ η) : Prop :=
  ex < queue.pool.executors.length ∧ queue.pool.isOpen ex = false ∧
    ∀ delivery, queue.deliveries[ref]? = some delivery → delivery.channel = ex →
      delivery.future = none ∧
        (delivery.phase = .received ∨ delivery.phase = .returned .channelClosed)

section Steps

variable [ExecutorFailureEnforcer ε] (stepped : step fromJson queue action = some next)
include stepped

private theorem lasting_step {before : Delivery β δ} (lasting : Lasting ref before queue) :
    Lasting ref before next := by
  obtain ⟨delivery, read, same, acks, timedOut⟩ := lasting
  obtain ⟨after, readAfter, kept, rfl | ⟨-, advance⟩⟩ := (step_deliveries stepped).kept read
  · exact ⟨after, readAfter, same, acks, timedOut⟩
  · exact ⟨after, readAfter, ⟨kept.channel.trans same.channel, kept.body.trans same.body⟩,
      Nat.le_trans acks advance.acks_le, fun late => Advance.timedOut advance (timedOut late)⟩

/-- What is cut off is never acknowledged. -/
theorem cutOff_step (cutOff : CutOff ref queue) : CutOff ref next := by
  obtain ⟨delivery, read, inside, closed, acks⟩ := cutOff
  have older := step_older stepped
  obtain ⟨after, readAfter, kept, same | ⟨-, advance⟩⟩ := (step_deliveries stepped).kept read
  · subst same
    exact ⟨after, readAfter, Nat.lt_of_lt_of_le inside older.length_le,
      closed_step older inside closed, acks⟩
  · refine ⟨after, readAfter, kept.channel ▸ Nat.lt_of_lt_of_le inside older.length_le,
      kept.channel ▸ closed_step older inside closed, ?_⟩
    cases advance with
    | ack phase opened | lateAck phase opened => rw [closed] at opened; contradiction
    | _ => exact acks

/-- What is turned away is never submitted. -/
theorem turnedAway_step (turnedAway : TurnedAway ref ex queue) : TurnedAway ref ex next := by
  obtain ⟨inside, closed, idle⟩ := turnedAway
  have older := step_older stepped
  refine ⟨Nat.lt_of_lt_of_le inside older.length_le, closed_step older inside closed, ?_⟩
  rintro delivery read rfl
  cases (step_deliveries stepped).origin read with
  | same old => exact idle delivery old rfl
  | advanced before asked known advance =>
    obtain ⟨none, phase | phase⟩ := idle before known advance.channel.symm
    · rcases advance.of_received phase with ⟨opened, rfl⟩ | ⟨-, rfl⟩
      · rw [closed] at opened
        contradiction
      · exact ⟨none, .inr rfl⟩
    · have isOver := advance.isOver
      rw [phase] at isOver
      contradiction
  | delivered ex body live fresh => subst fresh; exact ⟨rfl, .inl rfl⟩

end Steps

variable [ExecutorFailureEnforcer ε] {actions : List (JobQueueAction β η)}

/-- No channel that was open when `stop` was called is closed while a delivery is in progress on it
whose job comes back in time, and no such delivery is left in progress on an open channel. -/
structure Undisturbed (fromJson : β → Except Throwable δ) (called final : JobQueue ε β δ η)
    (actions : List (JobQueueAction β η)) : Prop where
  notCutOff : ∀ before action later source target, actions = before ++ action :: later →
    run (step fromJson) called before = some source → step fromJson source action = some target →
    ∀ (ref : DeliveryRef) (delivery : Delivery β δ), source.deliveries[ref]? = some delivery →
      delivery.phase.isActive = true → called.pool.isOpen delivery.channel = true →
      source.pool.isOpen delivery.channel = true → target.pool.isOpen delivery.channel = false →
      ¬ InTime final ref
  notLeft : ∀ (ref : DeliveryRef) (delivery : Delivery β δ), final.deliveries[ref]? = some delivery →
    delivery.phase.isActive = true → called.pool.isOpen delivery.channel = true →
    final.pool.isOpen delivery.channel = true → ¬ InTime final ref

/-- The deliveries at the two ends of a run. -/
theorem lasting_of_run (ran : run (step fromJson) queue actions = some next)
    (read : queue.deliveries[ref]? = some delivery) : Lasting ref delivery next :=
  run_invariant (fun _ _ _ lasting stepped => lasting_step stepped lasting)
    ⟨delivery, read, ⟨rfl, rfl⟩, Nat.le_refl _, id⟩ ran

/-- The step that closes a channel acknowledges nothing, and moves only a delivery in progress. -/
theorem kept_of_closes (stepped : step fromJson source action = some target)
    (opened : source.pool.isOpen ex = true) (closed : target.pool.isOpen ex = false)
    (read : target.deliveries[ref]? = some after) : ∃ before,
      source.deliveries[ref]? = some before ∧ after.acks = before.acks ∧
      (after = before ∨ before.phase.isActive = true) := by
  rcases step_closes stepped opened closed with same | ⟨other, before, exception, known, phase, moved⟩
  · exact ⟨after, same ▸ read, rfl, .inl rfl⟩
  · rw [moved, List.getElem?_set] at read
    split at read
    · next here =>
      subst here
      split at read <;> cases read
      exact ⟨before, known, rfl, .inr (by rw [phase]; rfl)⟩
    · exact ⟨after, read, rfl, .inl rfl⟩

/-- A delivery in progress when its channel is closed is lost if its job comes back in time. -/
theorem not_acked_of_cutOff (coherent : Coherent source)
    (stepped : step fromJson source action = some target)
    (ran : run (step fromJson) target actions = some final)
    (read : source.deliveries[ref]? = some delivery) (active : delivery.phase.isActive = true)
    (opened : source.pool.isOpen delivery.channel = true)
    (closed : target.pool.isOpen delivery.channel = false) (inTime : InTime final ref) :
    ∃ ending, final.deliveries[ref]? = some ending ∧ ending.channel = delivery.channel ∧
      ending.acks = 0 := by
  have recorded := coherent.recorded ref delivery read
  obtain ⟨ending, readEnding, same, -, late⟩ :=
    lasting_of_run (run_cons_eq_some.mpr ⟨target, stepped, ran⟩) read
  obtain ⟨_, readSame, notLate, -⟩ := inTime
  cases readEnding.symm.trans readSame
  have punctual : delivery.timedOut = false := by
    by_contra timedOut
    rw [late (Bool.not_eq_false _ ▸ timedOut)] at notLate
    contradiction
  obtain ⟨after, readAfter, kept, -⟩ := (step_deliveries stepped).kept read
  obtain ⟨before, known, acks, -⟩ := kept_of_closes stepped opened closed readAfter
  cases read.symm.trans known
  have cutOff : CutOff ref target := by
    refine ⟨after, readAfter, ?_, by rw [kept.channel, closed], ?_⟩
    · rw [kept.channel]
      exact Nat.lt_of_lt_of_le recorded.inside (step_older stepped).length_le
    · rw [acks, recorded.acks_of_active active punctual]
  obtain ⟨_, readLast, -, -, none⟩ :=
    run_invariant (fun _ _ _ cutOff stepped => cutOff_step stepped cutOff) cutOff ran
  cases readEnding.symm.trans readLast
  exact ⟨ending, readEnding, same.channel, none⟩

/-- A delivery whose job has come back in time and whose channel has been closed was there when the
channel was closed, and either in progress then or acknowledged. -/
theorem acked_or_cutOff (coherent : Coherent source)
    (stepped : step fromJson source action = some target)
    (ran : run (step fromJson) target actions = some final)
    (read : final.deliveries[ref]? = some delivery) (inTime : InTime final ref)
    (opened : source.pool.isOpen delivery.channel = true)
    (closed : target.pool.isOpen delivery.channel = false)
    (inside : delivery.channel < source.pool.executors.length) :
    0 < delivery.acks ∨ ∃ before, source.deliveries[ref]? = some before ∧
      before.channel = delivery.channel ∧ before.phase.isActive = true := by
  obtain ⟨_, readSame, notLate, found, ⟨task, future, -⟩, -⟩ := inTime
  cases read.symm.trans readSame
  have grown := (step_older stepped).length_le
  -- a delivery that the client has not looked at before the closing never gets a job
  have looked : ¬ TurnedAway ref delivery.channel target := by
    intro turnedAway
    have never := run_invariant (fun _ _ _ away stepped => turnedAway_step stepped away) turnedAway ran
    rw [(never.2.2 delivery read rfl).1] at future
    contradiction
  have there : ∃ after, target.deliveries[ref]? = some after ∧ after.channel = delivery.channel ∧
      ¬ (after.future = none ∧ after.phase = .received) := by
    by_contra absent
    push Not at absent
    refine looked ⟨Nat.lt_of_lt_of_le inside grown, closed, fun after readAfter channel => ?_⟩
    have fresh := absent after readAfter channel
    exact ⟨fresh.1, .inl fresh.2⟩
  obtain ⟨after, readAfter, -, seen⟩ := there
  obtain ⟨before, known, -, stayed⟩ := kept_of_closes stepped opened closed readAfter
  obtain ⟨_, readLast, same, acks, late⟩ :=
    lasting_of_run (run_cons_eq_some.mpr ⟨target, stepped, ran⟩) known
  cases read.symm.trans readLast
  have recorded := coherent.recorded ref before known
  rcases Phase.received_or_active_or_over before.phase with received | active | isOver
  · rcases stayed with rfl | active
    · have chronicle := recorded.chronicle
      rw [Chronicle] at chronicle
      rw [received] at chronicle
      exact absurd ⟨chronicle.2, received⟩ seen
    · rw [received] at active
      contradiction
  · exact .inr ⟨before, known, same.channel.symm, active⟩
  · have punctual : before.timedOut = false := by
      by_contra timedOut
      rw [late (Bool.not_eq_false _ ▸ timedOut)] at notLate
      contradiction
    rw [recorded.acks_of_over isOver punctual (same.channel ▸ opened)] at acks
    exact .inl acks

/-- Stopping keeps the acknowledgements of a run if and only if nothing disturbs its deliveries. -/
theorem acknowledged_iff (coherent : Coherent called)
    (ran : run (step fromJson) called actions = some final) :
    Acknowledged called final ↔ Undisturbed fromJson called final actions := by
  constructor
  · intro acknowledged
    constructor
    · rintro before action later source target rfl reached stepped ref delivery read active open' opened
        closed inTime
      obtain ⟨_, found, continued⟩ := run_append_eq_some.mp ran
      cases reached.symm.trans found
      obtain ⟨_, same, ran⟩ := run_cons_eq_some.mp continued
      cases stepped.symm.trans same
      obtain ⟨ending, readEnding, channel, none⟩ := not_acked_of_cutOff (coherent_of_run coherent reached)
        stepped ran read active opened closed inTime
      have once := acknowledged ref ending readEnding (by rw [channel, open']) inTime
      rw [none] at once
      contradiction
    · intro ref delivery read active open' opened inTime
      have once := acknowledged ref delivery read open' inTime
      obtain ⟨_, readSame, notLate, -⟩ := inTime
      cases read.symm.trans readSame
      rw [((coherent_of_run coherent ran).recorded ref delivery read).acks_of_active active notLate] at once
      contradiction
  · intro undisturbed ref delivery read open' inTime
    have recorded := (coherent_of_run coherent ran).recorded ref delivery read
    have acked : 0 < delivery.acks := by
      by_cases still : final.pool.isOpen delivery.channel = true
      · obtain ⟨_, readSame, notLate, found, ⟨task, future, -⟩, -⟩ := id inTime
        cases read.symm.trans readSame
        rcases Phase.received_or_active_or_over delivery.phase with received | active | isOver
        · have chronicle := recorded.chronicle
          rw [Chronicle] at chronicle
          rw [received] at chronicle
          rw [chronicle.2] at future
          contradiction
        · exact absurd inTime (undisturbed.notLeft ref delivery read active open' still)
        · rw [recorded.acks_of_over isOver notLate still]
          exact Nat.zero_lt_one
      · obtain ⟨before, action, later, source, target, rfl, reached, stepped, ran, opened, closed⟩ :=
          exists_step_of_change (motive := fun queue => queue.pool.isOpen delivery.channel = false) ran
            (by rw [open']; decide) (eq_false_of_ne_true still)
        have opened : source.pool.isOpen delivery.channel = true := Bool.not_eq_false _ ▸ opened
        obtain ⟨_, known, -⟩ := JobQueueExecutorPool.isOpen_iff.mp opened
        rcases acked_or_cutOff (coherent_of_run coherent reached) stepped ran read inTime opened closed
          (List.getElem?_eq_some_iff.mp known).1 with acked | ⟨cut, readCut, channel, active⟩
        · exact acked
        · exact absurd inTime (undisturbed.notCutOff before action later source target rfl reached stepped
            ref cut readCut active (by rw [channel, open']) (by rw [channel, opened])
            (by rw [channel, closed]))
    have once := recorded.acks_le_one
    omega

/-- When the thread of `stop` runs `stopExecutors`, the pool is not closing yet and the list leads to
every executor whose channel is open. -/
def ListComplete (activity : ℕ) (queue : JobQueue ε β δ η) (action : JobQueueAction β η) : Prop :=
  ∀ answers expired rest, action = .pool (.exec activity answers expired) →
    queue.threads.activities[activity]? = some (.stopExecutors :: rest) →
    queue.pool.closing = false ∧ ∀ ex, queue.pool.isOpen ex = true → queue.pool.Reaches ex

/-- The thread has thrown, has still to run `stopExecutors`, or has still to stop every executor that
was open at the call and is open now. -/
def Closing (called : JobQueue ε β δ η) (activity : ℕ) (queue : JobQueue ε β δ η) : Prop :=
  called.pool.executors.length ≤ queue.pool.executors.length ∧
  ∃ code, queue.threads.activities[activity]? = some code ∧ (code = [] ∨ .stopExecutors ∈ code ∨
    ∀ ex, called.pool.isOpen ex = true → queue.pool.isOpen ex = false ∨ .stop ex ∈ code)

private theorem closing_step {activity : ℕ} (complete : ListComplete activity queue action)
    (closing : Closing called activity queue) (stepped : step fromJson queue action = some next) :
    Closing called activity next := by
  have older := step_older stepped
  obtain ⟨grown, code, read, pending⟩ := closing
  refine ⟨Nat.le_trans grown older.length_le, ?_⟩
  have shut (ex : ExecutorRef) (open' : called.pool.isOpen ex = true)
      (closed : queue.pool.isOpen ex = false) : next.pool.isOpen ex = false := by
    obtain ⟨_, known, -⟩ := JobQueueExecutorPool.isOpen_iff.mp open'
    obtain ⟨inside, -⟩ := List.getElem?_eq_some_iff.mp known
    exact closed_step older (Nat.lt_of_lt_of_le inside grown) closed
  have stays (same : next.threads.activities[activity]? = some code) :
      ∃ code, next.threads.activities[activity]? = some code ∧ (code = [] ∨ .stopExecutors ∈ code ∨
        ∀ ex, called.pool.isOpen ex = true → next.pool.isOpen ex = false ∨ .stop ex ∈ code) :=
    ⟨code, same, pending.imp_right (.imp_right fun every ex open' =>
      (every ex open').imp_left (shut ex open'))⟩
  rcases step_threads stepped with same | ⟨poolAction, rfl, moved⟩
  · exact stays (same ▸ read)
  rcases PoolThreads.step_activity moved read with
    same | ⟨answers, expired, instr, rest, result, rfl, rfl, ran, after⟩
  · exact stays same
  refine ⟨_, after, ?_⟩
  cases result with
  | error exception => exact .inl rfl
  | ok more =>
    rcases pending with nothing | waiting | every
    · contradiction
    · rcases List.mem_cons.mp waiting with rfl | later
      · obtain ⟨notYet, reaches⟩ := complete answers expired rest rfl read
        refine .inr (.inr fun ex open' => ?_)
        by_cases opened : queue.pool.isOpen ex = true
        · exact .inr (List.mem_append_left _
            (PoolThreads.stop_mem_of_reaches notYet ran (reaches ex opened)))
        · exact .inl (shut ex open' (eq_false_of_ne_true opened))
      · exact .inr (.inl (List.mem_append_right _ later))
    · refine .inr (.inr fun ex open' => ?_)
      rcases every ex open' with closed | waiting
      · exact .inl (shut ex open' closed)
      · rcases List.mem_cons.mp waiting with rfl | later
        · exact .inl (PoolThreads.isOpen_of_stop ran)
        · exact .inr (List.mem_append_right _ later)

/-- If the list is complete, every channel open at the call is closed when `stop` returns. -/
theorem closed_of_graceful {blockAfterKill : Bool}
    (ran : run (step fromJson) called (.pool (.callStop true blockAfterKill) :: actions) = some final)
    (complete : Along (step fromJson) (ListComplete called.threads.activities.length) called
      (.pool (.callStop true blockAfterKill) :: actions))
    (graceful : final.threads.activities[called.threads.activities.length]? = some [.returned .graceful])
    (opened : called.pool.isOpen ex = true) : final.pool.isOpen ex = false := by
  obtain ⟨waiting, stepped, ran⟩ := run_cons_eq_some.mp ran
  have started : Closing called called.threads.activities.length waiting := by
    cases stepped
    exact ⟨Nat.le_refl _, _, List.getElem?_concat_length .., .inr (.inl List.mem_cons_self)⟩
  obtain ⟨-, code, read, pending⟩ := run_invariant_along (motive := Closing called _)
    (fun _ _ _ closing complete stepped => closing_step complete closing stepped) started
    (complete.tail stepped) ran
  cases read.symm.trans graceful
  rcases pending with nothing | waiting | every
  · contradiction
  · simp at waiting
  · exact (every ex opened).resolve_right (by simp)

/-- A stop that returns `Graceful` has kept every acknowledgement if and only if nothing has disturbed
the deliveries; and if the list was complete, it has closed every channel. -/
theorem acknowledged_iff_undisturbed (config : ExecutorPoolConfig ε) (clock : Clock)
    (fromJson : β → Except Throwable δ) (waiting : List β) (before after : List (JobQueueAction β η))
    (blockAfterKill : Bool) (pool : JobQueueExecutorPool ε (Job δ η))
    (constructed : JobQueueExecutorPool.new config clock = .ok pool)
    (reached : run (step fromJson) (starting pool waiting) before = some called)
    (ran : run (step fromJson) called (.pool (.callStop true blockAfterKill) :: after) = some final)
    (graceful :
      final.threads.activities[called.threads.activities.length]? = some [.returned .graceful]) :
    (Acknowledged called final ↔
      Undisturbed fromJson called final (.pool (.callStop true blockAfterKill) :: after)) ∧
    (Along (step fromJson) (ListComplete called.threads.activities.length) called
        (.pool (.callStop true blockAfterKill) :: after) →
      ∀ ex, called.pool.isOpen ex = true → final.pool.isOpen ex = false) := by
  have coherent := coherent_of_run (coherent_of_new constructed) reached
  exact ⟨acknowledged_iff coherent ran, fun complete ex => closed_of_graceful ran complete graceful⟩

/-- The thread of `stop` closes the channel and shuts the thread pool down; the job comes back, and
`stop` returns; the acknowledgement throws. -/
def stopAround : List (JobQueueAction ℕ ℕ) :=
  .pool (.callStop true true) :: List.replicate 4 (.pool (.exec 1 {} false)) ++
    [.handlerEnds 0 true, .nextHandler 0, .callback 0 .answered, .callback 0 .answered,
      .pool (.exec 1 {} false)]

theorem run_stopAround :
    ∃ called ∈ run (step .ok) (starting UnstartedJobs.onePool [1]) UnstartedJobs.firstJob,
    ∃ final ∈ run (step .ok) called stopAround,
      called.pool.isOpen 0 = true ∧
      final.threads.activities[called.threads.activities.length]? = some [.returned .graceful] ∧
      final.deliveries =
        [{ channel := 0, body := 1, phase := .threw .alreadyClosed, future := some 0 }] ∧
      final.tasks.map (·.future) = [.normal] ∧ final.tasks.map (·.payload.delivery) = [0] ∧
      final.broker.ready = [1] := by
  decide +kernel

theorem acknowledged_iff_undisturbed_running : ∃ called final : JobQueue MaxFailureEnforcer ℕ ℕ ℕ,
    called.pool.isOpen 0 = true ∧ final.broker.ready = [1] ∧
    (Acknowledged called final ↔ Undisturbed .ok called final stopAround) := by
  obtain ⟨called, reached, final, ran, opened, graceful, -, -, -, ready⟩ := run_stopAround
  exact ⟨called, final, opened, ready, (acknowledged_iff_undisturbed ⟨"jobs", 1, maxTotalFailures 5⟩
    (Stream'.const 0) .ok [1] UnstartedJobs.firstJob _ true UnstartedJobs.onePool rfl reached ran
    graceful).1⟩

/-- The job is running when `stop` closes its channel. It completes, `stop` returns `Graceful`, and
the message is back in the queue. -/
theorem running_job_requeued : ¬ ∀ (before after : List (JobQueueAction ℕ ℕ))
    (called final : JobQueue MaxFailureEnforcer ℕ ℕ ℕ),
    run (step .ok) (starting UnstartedJobs.onePool [1]) before = some called →
    run (step .ok) called (.pool (.callStop true true) :: after) = some final →
    final.threads.activities[called.threads.activities.length]? = some [.returned .graceful] →
    Acknowledged called final := by
  intro claim
  obtain ⟨called, reached, final, ran, opened, graceful, deliveries, futures, owners, -⟩ := run_stopAround
  obtain ⟨job, tasks, normal⟩ := List.map_eq_singleton_iff.mp futures
  rw [tasks, List.map_singleton, List.singleton_inj] at owners
  have read : final.deliveries[0]? =
      some { channel := 0, body := 1, phase := .threw .alreadyClosed, future := some 0 } := by
    rw [deliveries]
    rfl
  have inTime : InTime final 0 :=
    ⟨_, read, rfl, job, ⟨0, rfl, by rw [tasks]; rfl, owners⟩, normal⟩
  have once := claim UnstartedJobs.firstJob _ called final reached ran graceful 0 _ read opened inTime
  contradiction

end RabbitJobQueue.Soundness.GracefulStop
