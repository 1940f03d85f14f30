import Mathlib.Tactic.NormNum
import RabbitJobQueue.Proofs.Replacement

/-! # The pool keeps its size

Each shutdown callback that does not halt the pool trades the dead consumer for exactly one new
one. The count never looks at the list: it is kept also by the callbacks whose last step, linking
the replacement, throws.
-/

namespace RabbitJobQueue.Soundness.PoolSize

open Machine Model Model.JobQueueExecutorPool

variable {ε π : Type} [ExecutorFailureEnforcer ε] {fresh started pool next : JobQueueExecutorPool ε π}

omit [ExecutorFailureEnforcer ε] in
/-- Each remaining iteration of `start` adds one live executor. -/
theorem startFrom_liveCount {answers : ℕ → ClientAnswers} (willing : ∀ i, (answers i).succeed)
    {first remaining : ℕ} (ran : (startFrom answers first remaining).exec pool = some (.ok (), next)) :
    next.liveCount = pool.liveCount + remaining ∧ next.closing = pool.closing := by
  induction remaining generalizing first pool with
  | zero => cases ran; exact ⟨rfl, rfl⟩
  | succ remaining ih =>
    rw [startFrom] at ran
    obtain ⟨_, middle, added, rest⟩ := Effect.exec_bind_eq_ok.mp ran
    rw [addNew_exec (willing first)] at added
    have same : (add pool.executors.length pool.withNew).2 = middle :=
      congrArg Prod.snd (Option.some.inj added)
    obtain ⟨count, closing⟩ := ih rest
    constructor
    · rw [count, ← same, liveCount_of_unlinked (add_unlinked _ _), withNew_liveCount]
      omega
    · rw [closing, ← same, add_closing]
      rfl

/-- One death, one replacement. -/
theorem death_liveCount (never : ExecutorFailureEnforcer.NeverThrows ε) {event : ConsumerDeath}
    (willing : event.answers.succeed) (died : pool.death event = some next)
    (still : next.closing = false) : next.liveCount = pool.liveCount := by
  obtain ⟨live, -, outcome⟩ := death_cases died
  rcases outcome with ⟨checked, result, -, same, ran⟩ | ⟨checked, result, -, -, ran⟩ | ⟨-, -, threw⟩
  · have closing : checked.closing = false := by rw [← replace_closing willing ran, still]
    rw [replace_of_open willing closing] at ran
    have final : (add (checked.dropped event.ref).executors.length
        (checked.dropped event.ref).withNew).2 = next := congrArg Prod.snd (Option.some.inj ran)
    have dead : checked.isLive event.ref = false := by
      have killed := isLive_kill pool event.ref event.cause
      rwa [isLive, ← same.executors] at killed
    have killed : checked.liveCount = (pool.kill event.ref event.cause).liveCount := by
      rw [liveCount, same.executors, liveCount]
    rw [← final, liveCount_of_unlinked (add_unlinked _ _), withNew_liveCount, dropped_liveCount dead,
      killed, liveCount_kill live]
  · rw [stopNow_closing ran] at still
    contradiction
  · exact absurd never threw

/-- Between callbacks of an open pool exactly `poolSize` executors consume from the queue. -/
theorem liveCount_eq_poolSize (config : ExecutorPoolConfig ε) (clock : Clock)
    (never : ExecutorFailureEnforcer.NeverThrows ε) (answers : ℕ → ClientAnswers)
    (deaths : List ConsumerDeath) (constructed : new config clock = .ok fresh)
    (willing : ∀ i, (answers i).succeed)
    (complete : (start answers).exec fresh = some (.ok (), started))
    (granted : ∀ event ∈ deaths, event.answers.succeed)
    (ran : run death started deaths = some pool) (still : pool.closing = false) :
    (pool.liveCount : ℤ) = config.poolSize := by
  have size : (started.liveCount : ℤ) = config.poolSize := by
    obtain ⟨atLeastOne, -, rfl⟩ := new_eq_ok constructed
    rw [start, Effect.exec_get_bind] at complete
    rw [(startFrom_liveCount willing complete).1]
    simp [liveCount]
    omega
  -- the invariant speaks of open pools only, and a pool that is open now was open all along
  have kept : pool.closing = false → pool.liveCount = started.liveCount := by
    refine run_invariant_along (motive := fun current => current.closing = false →
      current.liveCount = started.liveCount) ?_ (fun _ => rfl) (.of_forall granted) ran
    intro source event target before willing died open'
    have closing : source.closing = false := by
      by_contra closed
      rw [Bool.not_eq_false] at closed
      rw [death_closing willing died closed] at open'
      contradiction
    rw [death_liveCount never willing died open', before closing]
  rw [kept still, size]

/-- Three workers; the middle one, then the last one, and then a replacement the list refused. -/
theorem liveCount_eq_poolSize_three : ∃ fresh started pool : JobQueueExecutorPool MaxFailureEnforcer Unit,
    new ⟨"jobs", 3, maxTotalFailures 5⟩ (Stream'.const 0) = .ok fresh ∧
    (start fun _ => {}).exec fresh = some (.ok (), started) ∧
    run death started [⟨1, .broker, {}⟩, ⟨3, .callbackException, {}⟩, ⟨4, .broker, {}⟩] = some pool ∧
    pool.head = some 0 ∧ pool.tail = none ∧ (pool.liveCount : ℤ) = 3 :=
  ⟨_, _, _, rfl, rfl, rfl, rfl, rfl,
    liveCount_eq_poolSize ⟨"jobs", 3, maxTotalFailures 5⟩ (Stream'.const 0)
      MaxFailureEnforcer.neverThrows (fun _ => {})
      [⟨1, .broker, {}⟩, ⟨3, .callbackException, {}⟩, ⟨4, .broker, {}⟩]
      rfl (fun _ => ⟨rfl, rfl⟩) rfl (by simp [ClientAnswers.succeed]) rfl rfl⟩

end RabbitJobQueue.Soundness.PoolSize
