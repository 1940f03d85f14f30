import RabbitJobQueue.Model.PoolLife
import Mathlib.Tactic.SplitIfs

/-! # What the pool's primitives do

One lemma for each primitive operation of the pool and each of the things later proofs observe:
the closing flag, the number of live executors, the link fields. The shutdown callback is taken
apart once, in `onConsumerShutdown_cases`.
-/

namespace RabbitJobQueue.Model.JobQueueExecutorPool

open Machine

variable {ε π : Type} {pool next : JobQueueExecutorPool ε π} {ref other : ExecutorRef}
  {executor : Executor}

/-- A constructed pool has a legal size and is empty. -/
theorem new_eq_ok {config : ExecutorPoolConfig ε} {clock : Clock}
    (constructed : new config clock = .ok pool) : 1 ≤ config.poolSize ∧ config.poolSize ≤ 64 ∧ pool = {
      poolSize := config.poolSize.toNat
      queueName := config.queueName
      failureChecker := config.failureChecker
      clock
      threads := { size := config.poolSize.toNat } } := by
  rw [new] at constructed
  split at constructed
  · contradiction
  · split at constructed
    · contradiction
    · cases constructed
      exact ⟨by omega, by omega, rfl⟩

theorem isLive_iff : pool.isLive ref = true ↔
    ∃ executor, pool.executors[ref]? = some executor ∧ executor.isLive = true := by
  simp [isLive, Option.any_eq_true]

theorem isOpen_iff : pool.isOpen ref = true ↔
    ∃ executor, pool.executors[ref]? = some executor ∧ executor.channel.isOpen = true := by
  simp [isOpen, Option.any_eq_true]

@[simp] theorem update_closing (change : Executor → Executor) :
    (pool.update ref change).closing = pool.closing := rfl
@[simp] theorem update_head (change : Executor → Executor) :
    (pool.update ref change).head = pool.head := rfl
@[simp] theorem update_tail (change : Executor → Executor) :
    (pool.update ref change).tail = pool.tail := rfl
@[simp] theorem update_executors (change : Executor → Executor) :
    (pool.update ref change).executors = pool.executors.modify ref change := rfl

/-- An executor without its place in the list. -/
def unlinked (executor : Executor) : Executor := { executor with prev := none, next := none }

theorem setNext_unlinked (pool : JobQueueExecutorPool ε π) (target : Option ExecutorRef) :
    (pool.setNext ref target).executors.map unlinked = pool.executors.map unlinked :=
  map_modify_of_same fun _ => rfl

theorem setPrev_unlinked (pool : JobQueueExecutorPool ε π) (target : Option ExecutorRef) :
    (pool.setPrev ref target).executors.map unlinked = pool.executors.map unlinked :=
  map_modify_of_same fun _ => rfl

/-- Nothing has changed but the links of the list. -/
structure Relinks (pool next : JobQueueExecutorPool ε π) : Prop where
  frame : next = { pool with executors := next.executors, head := next.head, tail := next.tail }
  unlinked : next.executors.map unlinked = pool.executors.map unlinked

theorem Relinks.closing (relinks : Relinks pool next) : next.closing = pool.closing := by
  rw [relinks.frame]

theorem remove_relinks (pool : JobQueueExecutorPool ε π) (ref : ExecutorRef) :
    Relinks pool (pool.remove ref) := by
  unfold remove
  split_ifs <;> dsimp only <;> repeat' split
  · exact ⟨rfl, setPrev_unlinked _ _⟩
  · exact ⟨rfl, rfl⟩
  · exact ⟨rfl, setNext_unlinked _ _⟩
  · exact ⟨rfl, rfl⟩
  · exact ⟨rfl, (setNext_unlinked _ _).trans (setPrev_unlinked _ _)⟩
  · exact ⟨rfl, setNext_unlinked _ _⟩
  · exact ⟨rfl, setPrev_unlinked _ _⟩
  · exact ⟨rfl, rfl⟩

theorem add_relinks (ref : ExecutorRef) (pool : JobQueueExecutorPool ε π) :
    Relinks pool (add ref pool).2 := by
  rw [add]
  split
  · exact ⟨rfl, rfl⟩
  · split
    · exact ⟨rfl, rfl⟩
    · exact ⟨rfl, setNext_unlinked pool _⟩

theorem remove_unlinked (pool : JobQueueExecutorPool ε π) (ref : ExecutorRef) :
    (pool.remove ref).executors.map unlinked = pool.executors.map unlinked :=
  (remove_relinks pool ref).unlinked

theorem add_unlinked (ref : ExecutorRef) (pool : JobQueueExecutorPool ε π) :
    (add ref pool).2.executors.map unlinked = pool.executors.map unlinked :=
  (add_relinks ref pool).unlinked

theorem remove_closing (pool : JobQueueExecutorPool ε π) (ref : ExecutorRef) :
    (pool.remove ref).closing = pool.closing := (remove_relinks pool ref).closing

theorem add_closing (ref : ExecutorRef) (pool : JobQueueExecutorPool ε π) :
    (add ref pool).2.closing = pool.closing := (add_relinks ref pool).closing

/-- The live count is a count of unlinked executors. -/
theorem liveCount_of_unlinked (same : next.executors.map unlinked = pool.executors.map unlinked) :
    next.liveCount = pool.liveCount := by
  have count (heap : List Executor) :
      heap.countP (·.isLive) = (heap.map unlinked).countP (·.isLive) := by
    rw [List.countP_map]
    rfl
  unfold liveCount
  rw [count, same, ← count]

theorem isLive_of_unlinked (same : next.executors.map unlinked = pool.executors.map unlinked)
    (ref : ExecutorRef) : next.isLive ref = pool.isLive ref := by
  have read (heap : List Executor) : (heap[ref]?).any (·.isLive) =
      ((heap.map unlinked)[ref]?).any (·.isLive) := by
    rw [List.getElem?_map]
    cases heap[ref]? <;> rfl
  unfold isLive
  rw [read, same, ← read]

theorem isOpen_of_unlinked (same : next.executors.map unlinked = pool.executors.map unlinked)
    (ref : ExecutorRef) : next.isOpen ref = pool.isOpen ref := by
  have read (heap : List Executor) : (heap[ref]?).any (·.channel.isOpen) =
      ((heap.map unlinked)[ref]?).any (·.channel.isOpen) := by
    rw [List.getElem?_map]
    cases heap[ref]? <;> rfl
  unfold isOpen
  rw [read, same, ← read]

/-- Of a live executor, exactly one live executor is lost. -/
theorem liveCount_kill (live : pool.isLive ref = true) (cause : CloseCause) :
    (pool.kill ref cause).liveCount + 1 = pool.liveCount := by
  obtain ⟨executor, read, alive⟩ := isLive_iff.mp live
  have count := countP_modify Executor.isLive (·.die cause) read
  have dead : (executor.die cause).isLive = false := by simp [Executor.isLive]
  rw [alive, dead] at count
  exact count

/-- Stopping an executor that does not consume changes no count. -/
theorem liveCount_stopExecutor (dead : pool.isLive ref = false) :
    (pool.stopExecutor ref).liveCount = pool.liveCount := by
  apply countP_modify_of_same
  intro executor read
  rw [Executor.stop_isLive]
  cases alive : executor.isLive with
  | false => rfl
  | true => rw [isLive_iff.mpr ⟨executor, read, alive⟩] at dead; contradiction

theorem isLive_kill (pool : JobQueueExecutorPool ε π) (ref : ExecutorRef) (cause : CloseCause) :
    (pool.kill ref cause).isLive ref = false := by
  unfold kill isLive
  simp only [update_executors, List.getElem?_modify_eq]
  cases pool.executors[ref]? <;> simp [Executor.isLive]

/-- The pool after `createNew` and `init` have gone well: one more executor, subscribed. -/
def withNew (pool : JobQueueExecutorPool ε π) : JobQueueExecutorPool ε π :=
  { pool with
    counter := pool.counter + 1
    executors := pool.executors ++ [{
      id := s!"{pool.queueName}-consumer-pool-{pool.counter + 1}"
      subscribed := true }] }

theorem withNew_liveCount : pool.withNew.liveCount = pool.liveCount + 1 := by
  simp [withNew, liveCount, Executor.isLive, Channel.isOpen]

/-- With a willing client, a replacement is created and subscribed before it is linked. -/
theorem addNew_exec {answers : ClientAnswers} (willing : answers.succeed) :
    (addNew answers).exec pool = some (add pool.executors.length pool.withNew) := by
  obtain ⟨provided, consumed⟩ := willing
  have created : (createNew answers).exec pool = some (.ok pool.executors.length,
      { pool with
        counter := pool.counter + 1
        executors := pool.executors ++
          [{ id := s!"{pool.queueName}-consumer-pool-{pool.counter + 1}" }] }) := by
    simp only [createNew, provided]
    rfl
  rw [addNew, Effect.exec_bind_of_ok created]
  have subscribed : (init pool.executors.length answers).exec { pool with
        counter := pool.counter + 1
        executors := pool.executors ++
          [{ id := s!"{pool.queueName}-consumer-pool-{pool.counter + 1}" }] } =
      some (.ok (), pool.withNew) := by
    simp only [init, consumed, Effect.exec_get_bind]
    rw [if_pos (by simp [isOpen, Channel.isOpen])]
    simp only [Effect.exec_modify, update, withNew, modify_alloc]
  rw [Effect.exec_bind_of_ok subscribed, Effect.exec_ofExcept]

/-- The pools differ at most in what the failure checker has to do with. -/
def SameButChecker (pool checked : JobQueueExecutorPool ε π) : Prop :=
  checked = { pool with
    failureChecker := checked.failureChecker
    clock := checked.clock
    failuresMarked := checked.failuresMarked }

theorem SameButChecker.trans {checked : JobQueueExecutorPool ε π}
    (first : SameButChecker pool checked) (second : SameButChecker checked next) :
    SameButChecker pool next := by
  unfold SameButChecker at first second ⊢
  rw [second, first]

theorem SameButChecker.executors {checked : JobQueueExecutorPool ε π}
    (same : SameButChecker pool checked) : checked.executors = pool.executors := by
  rw [same]

theorem SameButChecker.closing {checked : JobQueueExecutorPool ε π}
    (same : SameButChecker pool checked) : checked.closing = pool.closing := by
  rw [same]

theorem enforce_same {α : Type} {method : Effect Throwable (ε × Clock) α} {result : Except Throwable α}
    (called : (enforce (π := π) method).exec pool = some (result, next)) :
    SameButChecker pool next := by
  obtain ⟨⟨answer, failureChecker, clock⟩, -, same⟩ := Option.map_eq_some_iff.mp called
  cases same
  rfl

/-- The checker does to its own state and to the clock what its method does. -/
theorem checker_of_enforce {α : Type} {method : Effect Throwable (ε × Clock) α} {result : Except Throwable α}
    (called : (enforce (π := π) method).exec pool = some (result, next)) :
    method.exec (pool.failureChecker, pool.clock) = some (result, next.failureChecker, next.clock) := by
  obtain ⟨⟨answer, failureChecker, clock⟩, ran, same⟩ := Option.map_eq_some_iff.mp called
  cases same
  exact ran

theorem enforce_failuresMarked {α : Type} {method : Effect Throwable (ε × Clock) α}
    {result : Except Throwable α} (called : (enforce (π := π) method).exec pool = some (result, next)) :
    next.failuresMarked = pool.failuresMarked := by
  obtain ⟨⟨answer, failureChecker, clock⟩, -, same⟩ := Option.map_eq_some_iff.mp called
  cases same
  rfl

section Callback

variable [ExecutorFailureEnforcer ε]

/-- The call counts whether or not the checker throws. -/
theorem markFailure_failuresMarked {result : Except Throwable Unit}
    (called : (markFailure (π := π)).exec pool = some (result, next)) :
    next.failuresMarked = pool.failuresMarked + 1 := by
  rw [markFailure, Effect.exec_modify_bind] at called
  exact enforce_failuresMarked called

theorem markFailure_same {result : Except Throwable Unit}
    (called : (markFailure (π := π)).exec pool = some (result, next)) : SameButChecker pool next := by
  rw [markFailure, Effect.exec_modify_bind] at called
  have counted : SameButChecker pool { pool with failuresMarked := pool.failuresMarked + 1 } := rfl
  exact counted.trans (enforce_same called)

/-- An exception out of the failure checker is one of its methods throwing. -/
private theorem neverThrows_of_enforce (never : ExecutorFailureEnforcer.NeverThrows ε)
    {exception : Throwable} :
    (markFailure (ε := ε) (π := π)).exec pool ≠ some (.error exception, next) ∧
    (shouldHalt (ε := ε) (π := π)).exec pool ≠ some (.error exception, next) ∧
    (reason (ε := ε) (π := π)).exec pool ≠ some (.error exception, next) := by
  refine ⟨?_, ?_, ?_⟩ <;> intro thrown
  · rw [markFailure, Effect.exec_modify_bind] at thrown
    obtain ⟨⟨answer, state⟩, called, same⟩ := Option.map_eq_some_iff.mp thrown
    cases same
    exact never.markFailure _ _ _ called
  · obtain ⟨⟨answer, state⟩, called, same⟩ := Option.map_eq_some_iff.mp thrown
    cases same
    exact never.shouldHalt _ _ _ called
  · obtain ⟨⟨answer, state⟩, called, same⟩ := Option.map_eq_some_iff.mp thrown
    cases same
    exact never.reason _ _ _ called

/-- The failure policy lets the callback of this death go on to the replacement. -/
def Passes (pool : JobQueueExecutorPool ε π) (event : ConsumerDeath)
    (checked : JobQueueExecutorPool ε π) : Prop :=
  (event.cause.isInitiatedByApplication = true ∧ checked = pool.kill event.ref event.cause) ∨
  (event.cause.isInitiatedByApplication = false ∧
    (do markFailure; shouldHalt : Code ε π Bool).exec (pool.kill event.ref event.cause) =
      some (.ok false, checked))

/-- How a death can go: the policy lets the consumer be replaced, or it halts the pool, or a method
of the failure checker throws and nothing further happens. -/
theorem death_cases {event : ConsumerDeath} (died : pool.death event = some next) :
    pool.isLive event.ref = true ∧ event.cause.isOwnStop = false ∧
    ((∃ checked result, Passes pool event checked ∧
        SameButChecker (pool.kill event.ref event.cause) checked ∧
        (replace event.ref event.answers).exec checked = some (result, next)) ∨
      (∃ checked result, event.cause.isInitiatedByApplication = false ∧
        SameButChecker (pool.kill event.ref event.cause) checked ∧
        (stopNow true).exec checked = some (result, next)) ∨
      (event.cause.isInitiatedByApplication = false ∧
        SameButChecker (pool.kill event.ref event.cause) next ∧
        ¬ ExecutorFailureEnforcer.NeverThrows ε)) := by
  rw [death] at died
  split at died
  · next enabled =>
    rw [Bool.and_eq_true, Bool.not_eq_true'] at enabled
    refine ⟨enabled.1, enabled.2, ?_⟩
    obtain ⟨⟨result, final⟩, ran, same⟩ := Option.map_eq_some_iff.mp died
    cases same
    rw [onConsumerShutdown] at ran
    cases initiated : event.cause.isInitiatedByApplication with
    | true =>
      rw [initiated, if_pos rfl] at ran
      exact .inl ⟨_, result, .inl ⟨initiated, rfl⟩, rfl, ran⟩
    | false =>
      rw [initiated, if_neg Bool.false_ne_true] at ran
      rcases Effect.exec_bind_eq_some.mp ran with ⟨_, marked, mark, ran⟩ | ⟨exception, mark, -⟩
      · have first := markFailure_same mark
        rcases Effect.exec_bind_eq_some.mp ran with ⟨halts, checked, check, ran⟩ | ⟨exception, check, -⟩
        · have second := first.trans (enforce_same check)
          cases halts with
          | false =>
            refine .inl ⟨checked, result, .inr ⟨initiated, ?_⟩, second, ran⟩
            rw [Effect.exec_bind_of_ok mark]
            exact check
          | true =>
            rcases Effect.exec_bind_eq_some.mp ran with ⟨_, told, tell, ran⟩ | ⟨exception, tell, -⟩
            · have third := second.trans (enforce_same tell)
              rcases Effect.exec_bind_eq_some.mp ran with ⟨code, stopped, stop, ran⟩ |
                ⟨exception, stop, -⟩
              · cases ran
                exact .inr (.inl ⟨told, .ok code, rfl, third, stop⟩)
              · exact .inr (.inl ⟨told, .error exception, rfl, third, stop⟩)
            · exact .inr (.inr ⟨rfl, second.trans (enforce_same tell),
                fun never => (neverThrows_of_enforce never).2.2 tell⟩)
        · exact .inr (.inr ⟨rfl, first.trans (enforce_same check),
            fun never => (neverThrows_of_enforce never).2.1 check⟩)
      · exact .inr (.inr ⟨rfl, markFailure_same mark,
          fun never => (neverThrows_of_enforce never).1 mark⟩)
  · contradiction

theorem Passes.same {event : ConsumerDeath} {checked : JobQueueExecutorPool ε π}
    (passes : Passes pool event checked) :
    SameButChecker (pool.kill event.ref event.cause) checked := by
  rcases passes with ⟨-, rfl⟩ | ⟨-, ran⟩
  · rfl
  · obtain ⟨_, marked, mark, check⟩ := Effect.exec_bind_eq_ok.mp ran
    exact (markFailure_same mark).trans (enforce_same check)

/-- The callback of a death the policy lets pass is the replacement of the dead executor. -/
theorem callback_of_passes {event : ConsumerDeath} {checked : JobQueueExecutorPool ε π}
    (passes : Passes pool event checked) :
    (onConsumerShutdown event.ref event.cause.isInitiatedByApplication event.answers).exec
      (pool.kill event.ref event.cause) = (replace event.ref event.answers).exec checked := by
  rw [onConsumerShutdown]
  rcases passes with ⟨initiated, rfl⟩ | ⟨initiated, passed⟩
  · rw [initiated, if_pos rfl]
  · rw [initiated, if_neg Bool.false_ne_true]
    obtain ⟨_, marked, mark, check⟩ := Effect.exec_bind_eq_ok.mp passed
    rw [Effect.exec_bind_of_ok mark, Effect.exec_bind_of_ok check]
    rfl

theorem death_of_passes {event : ConsumerDeath} {checked : JobQueueExecutorPool ε π}
    (died : pool.death event = some next) (passes : Passes pool event checked) :
    ∃ result, (replace event.ref event.answers).exec checked = some (result, next) := by
  rw [death] at died
  split at died
  · obtain ⟨⟨result, final⟩, ran, same⟩ := Option.map_eq_some_iff.mp died
    cases same
    exact ⟨result, by rw [← callback_of_passes passes, ran]⟩
  · contradiction

end Callback

end RabbitJobQueue.Model.JobQueueExecutorPool
