import RabbitJobQueue.Proofs.DeliveryHistory
import RabbitJobQueue.Soundness.UnstartedJobs

/-! # Whether every consumer death counts as a failure

The shutdown callback marks a failure if its signal says that the application has not closed the
channel. A close by the broker or a lost connection says so, and the count of these is exact in every
interleaving. A channel the client closes because a delivery callback has thrown looks like one the
pool has closed itself: that death is never counted.
-/

namespace RabbitJobQueue.Soundness.FailureCount

open Machine Model Model.JobQueue Model.JobQueueExecutorPool

variable {ε π : Type} {executor : Executor}

/-- The consumer has been killed by something other than the pool's own stop. -/
def killed (executor : Executor) : Bool :=
  executor.subscribed && executor.channel.closedBy.any (!·.isOwnStop)

/-- The consumer has been killed by an exception that left its delivery callback. -/
def crashed (executor : Executor) : Bool :=
  executor.subscribed && executor.channel.closedBy == some .callbackException

/-- The consumer's shutdown callback has been started for a channel the application has not closed. -/
def reported (executor : Executor) : Bool :=
  executor.subscribed && executor.signalled &&
    executor.channel.closedBy.any (!·.isInitiatedByApplication)

/-- The thread is about to call `markFailure`. -/
def marking (code : List Instr) : Bool := code.head? == some .markFailure

/-- Every shutdown callback that is due has been started, and has called `markFailure` if it does. -/
structure Settled (threads : PoolThreads ε π) : Prop where
  signalled : ∀ ex < threads.pool.executors.length, threads.dueSignal ex = none
  marked : ∀ code ∈ threads.activities, .markFailure ∉ code

/-- The books of the failure checker: each report has been marked, or is about to be. -/
structure Tally (threads : PoolThreads ε π) : Prop where
  balance : threads.pool.failuresMarked + threads.activities.countP marking =
    threads.pool.executors.countP reported
  once : ∀ code ∈ threads.activities, .markFailure ∉ code.tail

/-- An executor whose channel is closed again, or for the first time before its callback starts, is
reported as before. -/
theorem reported_of_close {after : Executor} {cause : CloseCause}
    (subscribed : after.subscribed = executor.subscribed)
    (signalled : after.signalled = executor.signalled)
    (channel : after.channel = executor.channel.close cause) : reported after = reported executor := by
  unfold reported
  rw [subscribed, signalled, channel]
  cases open' : executor.channel.isOpen with
  | true => rw [executor.signalled_of_isOpen open', Bool.and_false, Bool.false_and, Bool.false_and]
  | false => rw [Channel.close_of_closed open']

private theorem reported_subscribe (open' : executor.channel.isOpen = true) :
    reported { executor with subscribed := true } = reported executor := by
  unfold reported
  dsimp only
  rw [executor.signalled_of_isOpen open', Bool.and_false, Bool.and_false, Bool.false_and]

private theorem countP_reported_map (heap : List Executor) :
    heap.countP reported = (heap.map unlinked).countP reported := by
  rw [List.countP_map]
  rfl

/-- No statement of the pool's threads changes what has been reported. -/
theorem Touches.reported {pool next : JobQueueExecutorPool ε π} (touches : Touches pool next) :
    next.executors.countP reported = pool.executors.countP reported := by
  cases touches with
  | relinks same => rw [countP_reported_map, same, ← countP_reported_map]
  | stops ref same =>
    rw [same]
    exact countP_modify_of_same fun _ _ => reported_of_close rfl rfl rfl
  | constructs id same => rw [same, countP_alloc]; rfl
  | subscribes ref opened same =>
    rw [same]
    refine countP_modify_of_same fun executor read => reported_subscribe ?_
    obtain ⟨_, known, open'⟩ := isOpen_iff.mp opened
    cases read.symm.trans known
    exact open'
  | aborts same =>
    rw [same, List.countP_map]
    apply List.countP_congr
    intro executor _
    have alike : FailureCount.reported (executor.closeBy .connectionAbort) = FailureCount.reported executor :=
      reported_of_close rfl rfl rfl
    rw [Function.comp_apply, alike]

section Threads

variable {threads next : PoolThreads ε π} {action : PoolAction}

private theorem marking_continuation [ExecutorFailureEnforcer ε] {rest : List Instr} {instr : Instr}
    {answers : ClientAnswers} {expired : Bool} {pool after : JobQueueExecutorPool ε π}
    {result : Except Throwable (List Instr)}
    (once : .markFailure ∉ rest)
    (ran : (instr.code answers expired).exec pool = some (result, after)) :
    .markFailure ∉ PoolThreads.continuation rest result := by
  cases result with
  | error exception => simp [PoolThreads.continuation]
  | ok more =>
    rw [PoolThreads.continuation, List.mem_append, not_or]
    exact ⟨Instr.markFailure_notMem ran, once⟩

private theorem marking_of_notMem {code : List Instr} (none : .markFailure ∉ code) :
    marking code = false := by
  cases code with
  | nil => rfl
  | cons instr rest =>
    have other : instr ≠ .markFailure := fun same => none (same ▸ List.mem_cons_self)
    simp [marking, other]

private theorem tally_starting (pool : JobQueueExecutorPool ε π) (unmarked : pool.failuresMarked = 0)
    (empty : pool.executors = []) : Tally (.starting pool) := by
  have none : .markFailure ∉ Instr.startCode pool.poolSize := by
    intro member
    exact absurd (List.eq_of_mem_replicate member) (by simp)
  constructor
  · simp [PoolThreads.starting, unmarked, empty, marking_of_notMem none]
  · intro code member
    rw [List.mem_singleton.mp member]
    exact fun later => none (List.mem_of_mem_tail later)

/-- A new thread is booked with what its callback, if it is one, reports. -/
theorem Tally.call (tally : Tally threads) {code : List Instr} {pool : JobQueueExecutorPool ε π}
    (marked : pool.failuresMarked = threads.pool.failuresMarked)
    (reports : pool.executors.countP reported =
      threads.pool.executors.countP reported + if marking code then 1 else 0)
    (once : .markFailure ∉ code.tail) :
    Tally { pool, activities := threads.activities ++ [code] } where
  balance := by
    have balance := tally.balance
    simp only [List.countP_append, List.countP_cons, List.countP_nil]
    omega
  once other member := by
    rcases List.mem_append.mp member with old | new
    · exact tally.once other old
    · rw [List.mem_singleton.mp new]
      exact once

/-- Closing a channel reports nothing by itself. -/
theorem Tally.close (tally : Tally threads) (ex : ExecutorRef) (cause : CloseCause) :
    Tally { threads with pool := threads.pool.closeChannel ex cause } := by
  refine ⟨?_, tally.once⟩
  rw [show (threads.pool.closeChannel ex cause).executors.countP reported = _ from
    countP_modify_of_same fun _ _ => reported_of_close rfl rfl rfl]
  exact tally.balance

private theorem tally_step [ExecutorFailureEnforcer ε] (tally : Tally threads)
    (stepped : threads.step action = some next) : Tally next := by
  cases action with
  | callStop block blockAfterKill =>
    cases stepped
    refine tally.call rfl ?_ ?_ <;> cases block <;> simp [Instr.stopCode, marking]
  | callStopNow block =>
    cases stepped
    refine tally.call rfl ?_ ?_ <;> cases block <;> simp [Instr.stopNowCode, marking]
  | close ex cause =>
    unfold PoolThreads.step at stepped
    dsimp only at stepped
    split at stepped <;> cases stepped
    exact tally.close ex cause
  | signal ex =>
    obtain ⟨cause, due, same⟩ := Option.map_eq_some_iff.mp stepped
    cases same
    obtain ⟨executor, read, rest⟩ := Option.bind_eq_some_iff.mp due
    split at rest
    · next waiting =>
      rw [Bool.and_eq_true, Bool.not_eq_true'] at waiting
      have closed : executor.channel.isOpen = false := by rw [Channel.isOpen, rest]; rfl
      have before : reported executor = false := by simp [reported, waiting.2]
      have after : reported (executor.die cause) = !cause.isInitiatedByApplication := by
        simp [reported, Executor.die, Channel.close_of_closed closed, waiting.1, rest]
      have count := countP_modify reported (·.die cause) read
      rw [before, after] at count
      refine tally.call rfl ?_ ?_
      · rw [kill, update_executors]
        cases initiated : cause.isInitiatedByApplication <;> rw [initiated] at count <;>
          simpa [Instr.onConsumerShutdown, Instr.replacement, marking] using count
      · cases cause.isInitiatedByApplication <;> simp [Instr.onConsumerShutdown, Instr.replacement]
    · contradiction
  | exec activity answers expired =>
    obtain ⟨instr, rest, result, read, -, ran, same⟩ := PoolThreads.exec_eq_some.mp stepped
    have performs := Instr.code_performs ran
    have once : .markFailure ∉ rest := tally.once _ (List.mem_of_getElem? read)
    have fresh := marking_continuation once ran
    have count := countP_modify marking (fun _ => PoolThreads.continuation rest result) read
    rw [modify_eq_set read, marking_of_notMem fresh] at count
    have balance := tally.balance
    constructor
    · rw [same, Touches.reported performs.touches, performs.failuresMarked]
      simp only [marking, List.head?_cons, beq_iff_eq, Option.some.injEq, Bool.false_eq_true,
        if_false] at count balance ⊢
      omega
    · intro code member
      rw [same] at member
      rcases List.mem_or_eq_of_mem_set member with old | rfl
      · exact tally.once code old
      · exact fun later => fresh (List.mem_of_mem_tail later)

end Threads

private theorem closedBy_of_close {channel : Channel} {cause other : CloseCause} (distinct : other ≠ cause)
    (closed : (channel.close other).closedBy = some cause) : channel.closedBy = some cause := by
  rw [Channel.close] at closed
  split at closed
  · exact absurd (Option.some.inj closed) distinct
  · exact closed

/-- The statements of the pool's threads close channels by the pool's own hand alone. -/
theorem Touches.closedBy {pool next : JobQueueExecutorPool ε π} (touches : Touches pool next)
    {cause : CloseCause} (outside : cause.isOwnStop = false) {ex : ExecutorRef} {after : Executor}
    (read : next.executors[ex]? = some after) (closed : after.channel.closedBy = some cause) :
    ∃ before, pool.executors[ex]? = some before ∧ before.channel.closedBy = some cause := by
  cases touches with
  | relinks same =>
    have view := congrArg (·[ex]?) same
    simp only [List.getElem?_map, read, Option.map_some] at view
    obtain ⟨before, readBefore, alike⟩ := Option.map_eq_some_iff.mp view.symm
    have channel : before.channel = after.channel := congrArg (·.channel) alike
    exact ⟨before, readBefore, by rw [channel, closed]⟩
  | stops ref same =>
    rw [same] at read
    obtain ⟨before, readBefore, rfl⟩ := getElem?_modify_eq_some.mp read
    refine ⟨before, readBefore, ?_⟩
    split at closed
    · exact closedBy_of_close (by rintro rfl; contradiction) closed
    · exact closed
  | constructs id same =>
    rw [same] at read
    rcases getElem?_alloc_eq_some.mp read with old | ⟨-, rfl⟩
    · exact ⟨after, old, closed⟩
    · contradiction
  | subscribes ref opened same =>
    rw [same] at read
    obtain ⟨before, readBefore, rfl⟩ := getElem?_modify_eq_some.mp read
    refine ⟨before, readBefore, ?_⟩
    split at closed <;> exact closed
  | aborts same =>
    rw [same, List.getElem?_map] at read
    obtain ⟨before, readBefore, rfl⟩ := Option.map_eq_some_iff.mp read
    exact ⟨before, readBefore, closedBy_of_close (by rintro rfl; contradiction) closed⟩

/-- No channel has been closed because of an exception. -/
def NoneCrashed (pool : JobQueueExecutorPool ε π) : Prop :=
  ∀ (ex : ExecutorRef) (executor : Executor), pool.executors[ex]? = some executor →
    executor.channel.closedBy ≠ some .callbackException

private theorem noneCrashed_threads_step [ExecutorFailureEnforcer ε] {threads next : PoolThreads ε π}
    {action : PoolAction} (none : NoneCrashed threads.pool) (other : action.isExceptionHandling = false)
    (stepped : threads.step action = some next) : NoneCrashed next.pool := by
  cases action with
  | callStop block blockAfterKill => cases stepped; exact none
  | callStopNow block => cases stepped; exact none
  | close ex cause =>
    unfold PoolThreads.step at stepped
    dsimp only at stepped
    split at stepped <;> cases stepped
    intro ref after read closed
    obtain ⟨before, readBefore, rfl⟩ := getElem?_modify_eq_some.mp read
    split at closed
    · have distinct : cause ≠ .callbackException := by simpa [PoolAction.isExceptionHandling] using other
      exact none ref before readBefore (closedBy_of_close distinct closed)
    · exact none ref before readBefore closed
  | signal ex =>
    obtain ⟨cause, due, same⟩ := Option.map_eq_some_iff.mp stepped
    cases same
    intro ref after read closed
    obtain ⟨before, readBefore, rfl⟩ := getElem?_modify_eq_some.mp read
    split at closed
    · next here =>
      subst here
      obtain ⟨executor, known, rest⟩ := Option.bind_eq_some_iff.mp due
      cases known.symm.trans readBefore
      split at rest
      · have shut : before.channel.isOpen = false := by rw [Channel.isOpen, rest]; rfl
        change (before.channel.close cause).closedBy = _ at closed
        rw [Channel.close_of_closed shut] at closed
        exact none ex before readBefore closed
      · contradiction
    · exact none ref before readBefore closed
  | exec activity answers expired =>
    obtain ⟨instr, rest, result, -, -, ran, -⟩ := PoolThreads.exec_eq_some.mp stepped
    intro ref after read closed
    obtain ⟨before, readBefore, same⟩ :=
      Touches.closedBy (Instr.code_performs ran).touches rfl read closed
    exact none ref before readBefore same

section Queue

variable {β δ η : Type} {fromJson : β → Except Throwable δ} {queue next : JobQueue ε β δ η}
  {action : JobQueueAction β η} {ref : DeliveryRef} {delivery : Delivery β δ}

/-- No exception has left the delivery callback of an open channel, as far as this step handles one. -/
def NoEscape (queue : JobQueue ε β δ η) (action : JobQueueAction β η) : Prop :=
  ∀ (ref : DeliveryRef) (delivery : Delivery β δ), action = .handleException ref →
    queue.deliveries[ref]? = some delivery → queue.pool.isOpen delivery.channel = false

/-- The consumer a delivery came to is registered. -/
def Served (queue : JobQueue ε β δ η) : Prop :=
  ∀ (ref : DeliveryRef) (delivery : Delivery β δ), queue.deliveries[ref]? = some delivery →
    ∃ executor, queue.pool.executors[delivery.channel]? = some executor ∧ executor.subscribed = true

variable [ExecutorFailureEnforcer ε]

private theorem served_step (served : Served queue) (stepped : step fromJson queue action = some next) :
    Served next := by
  intro ref delivery read
  have older := step_older stepped
  have still {ex : ExecutorRef} (before : ∃ executor, queue.pool.executors[ex]? = some executor ∧
      executor.subscribed = true) :
      ∃ executor, next.pool.executors[ex]? = some executor ∧ executor.subscribed = true := by
    obtain ⟨executor, known, subscribed⟩ := before
    obtain ⟨after, readAfter, ages⟩ := older.executors ex executor known
    exact ⟨after, readAfter, ages.subscribed subscribed⟩
  cases (step_deliveries stepped).origin read with
  | same old => exact still (served ref delivery old)
  | advanced before asked known advance =>
    rw [advance.channel]
    exact still (served ref before known)
  | delivered ex body live fresh =>
    subst fresh
    obtain ⟨executor, known, alive⟩ := isLive_iff.mp live
    rw [Executor.isLive, Bool.and_eq_true] at alive
    exact still ⟨executor, known, alive.1⟩

private theorem tally_queue_step (tally : Tally queue.threads)
    (stepped : step fromJson queue action = some next) : Tally next.threads := by
  cases step_spec stepped with
  | publish body same => subst same; exact tally
  | deliver position ex broker body live handed same => subst same; exact tally
  | callback ref delivery wait read called =>
    obtain ⟨after, spec⟩ := callback_spec read called
    obtain ⟨threads, same⟩ := spec.threads
    rw [same]
    exact ⟨tally.balance, tally.once⟩
  | handleException ref delivery exception read phase same => subst same; exact tally.close _ _
  | takeTask threads taken same => subst same; exact ⟨tally.balance, tally.once⟩
  | nextHandler task execution running idle same =>
    subst same
    rw [nextHandler]
    split <;> exact ⟨tally.balance, tally.once⟩
  | handlerReturns task execution running inside same => subst same; exact ⟨tally.balance, tally.once⟩
  | handlerThrows task execution running inside same => subst same; exact ⟨tally.balance, tally.once⟩
  | onJob handler constructed same => subst same; exact tally
  | pool action threads other moved same => subst same; exact tally_step tally moved

private theorem noneCrashed_step (none : NoneCrashed queue.pool) (noEscape : NoEscape queue action)
    (stepped : step fromJson queue action = some next) : NoneCrashed next.pool := by
  have of_same (same : next.pool.executors = queue.pool.executors) : NoneCrashed next.pool := by
    intro ex executor read
    exact none ex executor (same ▸ read)
  cases step_spec stepped with
  | publish body same => subst same; exact none
  | deliver position ex broker body live handed same => subst same; exact none
  | callback ref delivery wait read called =>
    obtain ⟨after, spec⟩ := callback_spec read called
    obtain ⟨threads, same⟩ := spec.threads
    exact of_same (congrArg (·.pool.executors) same)
  | handleException ref delivery exception read phase same =>
    subst same
    have closed := noEscape ref delivery rfl read
    intro ex after found crash
    obtain ⟨before, known, rfl⟩ := getElem?_modify_eq_some.mp found
    split at crash
    · next here =>
      subst here
      have shut : before.channel.isOpen = false := by
        by_contra open'
        rw [isOpen_iff.mpr ⟨before, known, Bool.not_eq_false _ ▸ open'⟩] at closed
        contradiction
      change (before.channel.close .callbackException).closedBy = _ at crash
      rw [Channel.close_of_closed shut] at crash
      exact none _ before known crash
    · exact none ex before known crash
  | takeTask threads taken same => subst same; exact none
  | nextHandler task execution running idle same =>
    subst same
    rw [nextHandler]
    split <;> exact none
  | handlerReturns task execution running inside same => subst same; exact none
  | handlerThrows task execution running inside same => subst same; exact none
  | onJob handler constructed same => subst same; exact none
  | pool action threads other moved same => subst same; exact noneCrashed_threads_step none other moved

/-- An exception that leaves the callback of an open channel kills its consumer for good. -/
theorem crashed_of_escape {middle : JobQueue ε β δ η} {actions : List (JobQueueAction β η)}
    (served : Served queue) (escapes : ¬ NoEscape queue action)
    (stepped : step fromJson queue action = some middle)
    (ran : run (step fromJson) middle actions = some next) :
    ∃ executor ∈ next.pool.executors, crashed executor = true := by
  rw [NoEscape] at escapes
  push Not at escapes
  obtain ⟨ref, delivery, rfl, read, opened⟩ := escapes
  obtain ⟨executor, known, subscribed⟩ := served ref delivery read
  have open' : executor.channel.isOpen = true := by
    obtain ⟨_, same, open'⟩ := isOpen_iff.mp (eq_true_of_ne_false opened)
    cases known.symm.trans same
    exact open'
  have crash : ∃ after, middle.pool.executors[delivery.channel]? = some after ∧
      after.subscribed = true ∧ after.channel.closedBy = some .callbackException := by
    cases step_spec stepped with
    | handleException ref other exception found phase same =>
      cases read.symm.trans found
      subst same
      exact ⟨_, getElem?_modify_self known, subscribed, Channel.closedBy_close_of_isOpen open' _⟩
  obtain ⟨after, readAfter, stillSubscribed, still⟩ := run_invariant
    (motive := fun queue => ∃ after, queue.pool.executors[delivery.channel]? = some after ∧
      after.subscribed = true ∧ after.channel.closedBy = some .callbackException)
    (fun _ _ _ crash stepped => by
      obtain ⟨before, readBefore, subscribed, closed⟩ := crash
      obtain ⟨after, readAfter, ages⟩ := (step_older stepped).executors _ before readBefore
      exact ⟨after, readAfter, ages.subscribed subscribed, ages.closedBy _ closed⟩) crash ran
  refine ⟨after, List.mem_of_getElem? readAfter, ?_⟩
  simp [crashed, stillSubscribed, still]

omit [ExecutorFailureEnforcer ε] in
/-- When all callbacks that are due have been started, a killed consumer is reported or crashed. -/
theorem countP_killed {heap : List Executor}
    (started : ∀ executor ∈ heap, executor.subscribed = true → executor.signalled = false →
      executor.channel.closedBy = none) :
    heap.countP killed = heap.countP reported + heap.countP crashed := by
  induction heap with
  | nil => rfl
  | cons executor rest ih =>
    obtain ⟨here, later⟩ := List.forall_mem_cons.mp started
    have one : (if killed executor then 1 else 0) =
        (if reported executor then 1 else 0) + if crashed executor then 1 else 0 := by
      unfold killed reported crashed
      cases subscribed : executor.subscribed with
      | false => simp
      | true =>
        cases signalled : executor.signalled with
        | false => simp [here subscribed signalled]
        | true =>
          rcases executor.channel.closedBy with _ | cause
          · simp
          · cases cause <;> simp [CloseCause.isOwnStop, CloseCause.isInitiatedByApplication]
    rw [List.countP_cons, List.countP_cons, List.countP_cons, ih later]
    omega

omit [ExecutorFailureEnforcer ε] in
/-- The books, read when everything that is due has been done. -/
theorem failuresMarked_of_settled {threads : PoolThreads ε π} (tally : Tally threads)
    (settled : Settled threads) :
    threads.pool.failuresMarked + threads.pool.executors.countP crashed =
      threads.pool.executors.countP killed := by
  have idle : threads.activities.countP marking = 0 := by
    rw [List.countP_eq_zero]
    intro code member
    rw [marking_of_notMem (settled.marked code member)]
    decide
  have balance := tally.balance
  rw [countP_killed, ← balance, idle, Nat.add_zero]
  intro executor member subscribed waiting
  obtain ⟨ex, read⟩ := List.mem_iff_getElem?.mp member
  have due := settled.signalled ex (List.getElem?_eq_some_iff.mp read).1
  rw [PoolThreads.dueSignal, read, Option.bind_some, subscribed, waiting] at due
  exact due

/-- The consumers killed by exceptions are none exactly in the runs no exception escapes in. -/
theorem noneCrashed_iff {source : JobQueue ε β δ η} {actions : List (JobQueueAction β η)}
    (empty : source.pool.executors = []) (idle : source.deliveries = [])
    (ran : run (step fromJson) source actions = some queue) :
    queue.pool.executors.countP crashed = 0 ↔ Along (step fromJson) NoEscape source actions := by
  rw [List.countP_eq_zero]
  constructor
  · rintro none before action after middle rfl reached
    by_contra escapes
    obtain ⟨_, found, continued⟩ := run_append_eq_some.mp ran
    cases reached.symm.trans found
    obtain ⟨target, stepped, ran⟩ := run_cons_eq_some.mp continued
    have served : Served middle := run_invariant
      (fun _ _ _ served stepped => served_step served stepped) (by simp [Served, idle]) reached
    obtain ⟨executor, member, crash⟩ := crashed_of_escape served escapes stepped ran
    exact none executor member crash
  · intro noEscape executor member crash
    have none : NoneCrashed queue.pool := run_invariant_along
      (motive := fun queue => NoneCrashed queue.pool)
      (fun _ _ _ none noEscape stepped => noneCrashed_step none noEscape stepped)
      (by simp [NoneCrashed, empty]) noEscape ran
    obtain ⟨ex, read⟩ := List.mem_iff_getElem?.mp member
    rw [crashed, Bool.and_eq_true, beq_iff_eq] at crash
    exact none ex executor read crash.2

/-- For every run: when all shutdown callbacks that are due have been run, as many failures have been
marked as consumers have been killed, if and only if no exception has left the delivery callback of
an open channel; and then no message has killed a consumer by throwing. -/
theorem failuresMarked_eq_killed_iff (config : ExecutorPoolConfig ε) (clock : Clock)
    (fromJson : β → Except Throwable δ) (waiting : List β) (actions : List (JobQueueAction β η))
    (pool : JobQueueExecutorPool ε (Job δ η))
    (constructed : JobQueueExecutorPool.new config clock = .ok pool)
    (ran : run (step fromJson) (starting pool waiting) actions = some queue)
    (settled : Settled queue.threads) :
    (queue.pool.failuresMarked = queue.pool.executors.countP killed ↔
      Along (step fromJson) NoEscape (starting pool waiting) actions) ∧
    (Along (step fromJson) NoEscape (starting pool waiting) actions →
      queue.pool.executors.countP crashed = 0) := by
  obtain ⟨-, -, rfl⟩ := JobQueueExecutorPool.new_eq_ok constructed
  have tally : Tally queue.threads := run_invariant (motive := fun queue => Tally queue.threads)
    (fun _ _ _ tally stepped => tally_queue_step tally stepped) (tally_starting _ rfl rfl) ran
  have count : queue.pool.failuresMarked + queue.pool.executors.countP crashed =
    queue.pool.executors.countP killed := failuresMarked_of_settled tally settled
  have crashes := noneCrashed_iff rfl rfl ran
  rw [← count, Nat.left_eq_add]
  exact ⟨crashes, crashes.mpr⟩

/-- One round of a message that nobody can decode: the consumer it comes to is killed, the shutdown
callback puts a new one in its place, and the message is ready again. -/
def round (consumer : ℕ) : List (JobQueueAction ℕ ℕ) :=
  [.deliver 0 consumer, .callback consumer .answered, .callback consumer .answered,
    .handleException consumer, .pool (.signal consumer)] ++
  List.replicate 6 (.pool (.exec (consumer + 1) {} false))

/-- A pool for one worker that allows no failure. -/
def strictPool : JobQueueExecutorPool MaxFailureEnforcer (Job ℕ ℕ) :=
  { UnstartedJobs.onePool with failureChecker := maxTotalFailures 0 }

private theorem run_rounds : ∃ queue ∈ run (step fun _ => .error .nullPointer) (starting strictPool [1])
      (List.replicate 3 (.pool (.exec 0 {} false)) ++ round 0 ++ round 1 ++ round 2),
    (∀ ex < queue.threads.pool.executors.length, queue.threads.dueSignal ex = none) ∧
    (∀ code ∈ queue.threads.activities, .markFailure ∉ code) ∧ queue.pool.closing = false ∧
    queue.pool.failuresMarked = 0 ∧ queue.pool.executors.countP killed = 3 := by
  decide +kernel

omit [ExecutorFailureEnforcer ε] in
theorem failuresMarked_eq_killed_iff_rounds : ∃ queue : JobQueue MaxFailureEnforcer ℕ ℕ ℕ,
    queue.pool.executors.countP killed = 3 ∧
    (queue.pool.failuresMarked = queue.pool.executors.countP killed ↔
      Along (step fun _ => .error .nullPointer) NoEscape (starting strictPool [1])
        (List.replicate 3 (.pool (.exec 0 {} false)) ++ round 0 ++ round 1 ++ round 2)) := by
  obtain ⟨queue, ran, signalled, marked, -, -, killed⟩ := run_rounds
  exact ⟨queue, killed, failuresMarked_eq_killed_iff ⟨"jobs", 1, maxTotalFailures 0⟩ (Stream'.const 0) _
    [1] _ strictPool rfl ran ⟨signalled, marked⟩ |>.1⟩

omit [ExecutorFailureEnforcer ε] in
/-- The message kills three consumers of a pool that allows no failure; none of them is counted, and
the pool is still open. -/
theorem poison_never_counted : ¬ ∀ (actions : List (JobQueueAction ℕ ℕ))
    (queue : JobQueue MaxFailureEnforcer ℕ ℕ ℕ),
    run (step fun _ => .error .nullPointer) (starting strictPool [1]) actions = some queue →
    queue.pool.closing = false → Settled queue.threads →
    queue.pool.failuresMarked = queue.pool.executors.countP killed ∨
      queue.pool.executors.countP killed ≤ 0 + 1 := by
  intro claim
  obtain ⟨queue, ran, signalled, marked, open', none, three⟩ := run_rounds
  have counted := claim _ queue ran open' ⟨signalled, marked⟩
  rw [none, three] at counted
  omega

end Queue

end RabbitJobQueue.Soundness.FailureCount
