import RabbitJobQueue.Proofs.StopExecutors

/-! # Replacing a dead executor

The end of the shutdown callback computes: on a closing pool it only drops the dead executor, and
otherwise, when the client grants a channel and a consumer, a new executor is subscribed and then
offered to the list, whether or not the list takes it.
-/

namespace RabbitJobQueue.Model.JobQueueExecutorPool

open Machine

variable {ε π : Type} {pool next : JobQueueExecutorPool ε π} {ref : ExecutorRef}
  {answers : ClientAnswers}

/-- The pool after the dead executor has been removed and stopped. -/
def dropped (pool : JobQueueExecutorPool ε π) (ref : ExecutorRef) : JobQueueExecutorPool ε π :=
  (pool.remove ref).stopExecutor ref

theorem dropped_closing (pool : JobQueueExecutorPool ε π) (ref : ExecutorRef) :
    (pool.dropped ref).closing = pool.closing := remove_closing pool ref

theorem dropped_liveCount (dead : pool.isLive ref = false) :
    (pool.dropped ref).liveCount = pool.liveCount := by
  rw [dropped, liveCount_stopExecutor, liveCount_of_unlinked (remove_unlinked pool ref)]
  rw [isLive_of_unlinked (remove_unlinked pool ref), dead]

theorem replace_of_closing (closing : pool.closing = true) :
    (replace ref answers).exec pool = some (.ok (), pool.dropped ref) := by
  simp only [replace, Effect.exec_modify_bind, Effect.exec_get_bind]
  rw [if_pos (by rw [← closing]; exact dropped_closing pool ref)]
  rfl

theorem replace_of_open (willing : answers.succeed) (closing : pool.closing = false) :
    (replace ref answers).exec pool =
      some (add (pool.dropped ref).executors.length (pool.dropped ref).withNew) := by
  simp only [replace, Effect.exec_modify_bind, Effect.exec_get_bind]
  rw [if_neg (by rw [show ((pool.remove ref).stopExecutor ref).closing = pool.closing from
    dropped_closing pool ref, closing]; exact Bool.false_ne_true)]
  exact addNew_exec willing

/-- Whatever it does, the end of the callback leaves the closing flag as it found it. -/
theorem replace_closing (willing : answers.succeed) {result : Except Throwable Unit}
    (ran : (replace ref answers).exec pool = some (result, next)) : next.closing = pool.closing := by
  cases closing : pool.closing with
  | true =>
    rw [replace_of_closing closing] at ran
    cases ran
    exact (dropped_closing pool ref).trans closing
  | false =>
    rw [replace_of_open willing closing] at ran
    have same : (add (pool.dropped ref).executors.length (pool.dropped ref).withNew).2 = next :=
      congrArg Prod.snd (Option.some.inj ran)
    rw [← same, add_closing]
    exact (dropped_closing pool ref).trans closing

/-- Halting the pool closes it. -/
theorem stopNow_closing {block : Bool} {result : Except Throwable StopCode}
    (ran : (stopNow block).exec pool = some (result, next)) : next.closing = true := by
  obtain ⟨-, stopped, stop, rfl⟩ := stopNow_spec ran
  exact (stopExecutors_closing stop).2

variable [ExecutorFailureEnforcer ε]

/-- A pool that is closing stays so through every death. -/
theorem death_closing {event : ConsumerDeath} (willing : event.answers.succeed)
    (died : pool.death event = some next) (closing : pool.closing = true) : next.closing = true := by
  have killed : (pool.kill event.ref event.cause).closing = true := closing
  rcases (death_cases died).2.2 with ⟨checked, result, -, same, ran⟩ | ⟨checked, result, -, -, ran⟩ |
    ⟨-, same, -⟩
  · rw [replace_closing willing ran, same.closing, killed]
  · obtain ⟨-, stopped, stop, rfl⟩ := stopNow_spec ran
    exact (stopExecutors_closing stop).2
  · rw [same.closing, killed]

/-- A pool that is open after a run was open before it. -/
theorem open_of_run {deaths : List ConsumerDeath}
    (granted : ∀ event ∈ deaths, event.answers.succeed) (ran : run death pool deaths = some next)
    (still : next.closing = false) : pool.closing = false := by
  by_contra closing
  rw [Bool.not_eq_false] at closing
  have closed : next.closing = true := by
    refine run_invariant_along (motive := fun current => current.closing = true) ?_ closing
      (.of_forall granted) ran
    intro source event target before willing died
    exact death_closing willing died before
  rw [closed] at still
  contradiction

end RabbitJobQueue.Model.JobQueueExecutorPool
