import RabbitJobQueue.Proofs.ExecutorList

/-! # Whether stopping reaches every worker

`stopExecutors` stops what the list leads to. The list leads to every subscribed executor until a
consumer dies whose executor is the tail and not the head: from then on every closing of the pool
leaves a subscribed executor behind. The two halves are the invariants `Tidy` and `Broken`.
-/

namespace RabbitJobQueue.Soundness.StopReach

open Machine Model Model.JobQueueExecutorPool

variable {ε π : Type} {fresh started pool next closed : JobQueueExecutorPool ε π}
  {event : ConsumerDeath}

/-- `stop` has been called on every executor ever subscribed, and none of them consumes. -/
def EveryWorkerStopped (pool : JobQueueExecutorPool ε π) : Prop :=
  ∀ executor ∈ pool.executors, executor.subscribed = true →
    0 < executor.stopCalls ∧ executor.isLive = false

section Deaths

variable [ExecutorFailureEnforcer ε]

/-- The callback of this death gets as far as `remove`, on the executor that is the tail while
another one is the head. -/
def LosesTail (pool : JobQueueExecutorPool ε π) (event : ConsumerDeath) : Prop :=
  (∃ checked, Passes pool event checked) ∧ pool.TailRemoval event.ref

/-- A death in a pool that stays open replaces the executor, or leaves the list as it was. -/
theorem death_open (willing : event.answers.succeed) (died : pool.death event = some next)
    (still : next.closing = false) :
    (∃ checked, Passes pool event checked ∧ SameList pool checked ∧
      checked.isLive event.ref = false ∧
      next = (add (checked.dropped event.ref).executors.length
        (checked.dropped event.ref).withNew).2) ∨
    ((¬ ∃ checked, Passes pool event checked) ∧ SameList pool next) := by
  by_cases passes : ∃ checked, Passes pool event checked
  · obtain ⟨checked, passes⟩ := passes
    obtain ⟨result, ran⟩ := death_of_passes died passes
    have closing : checked.closing = false := by rw [← replace_closing willing ran, still]
    rw [replace_of_open willing closing] at ran
    have dead : checked.isLive event.ref = false := by
      have killed := isLive_kill pool event.ref event.cause
      rwa [isLive, ← passes.same.executors] at killed
    exact .inl ⟨checked, passes, sameList_kill passes.same, dead,
      (congrArg Prod.snd (Option.some.inj ran)).symm⟩
  · refine .inr ⟨passes, ?_⟩
    rcases (death_cases died).2.2 with ⟨checked, result, passed, -⟩ | ⟨checked, result, -, -, ran⟩ |
      ⟨-, same, -⟩
    · exact absurd ⟨checked, passed⟩ passes
    · rw [stopNow_closing ran] at still
      contradiction
    · exact sameList_kill same

theorem tidy_death (tidy : pool.Tidy ∧ pool.head ≠ none) (kept : ¬ LosesTail pool event)
    (willing : event.answers.succeed) (died : pool.death event = some next)
    (still : next.closing = false) : next.Tidy ∧ next.head ≠ none := by
  rcases death_open willing died still with ⟨checked, passes, same, -, rfl⟩ | ⟨-, same⟩
  · have stays : ¬ checked.TailRemoval event.ref := by
      rintro ⟨tail, head⟩
      exact kept ⟨⟨checked, passes⟩, same.tail ▸ tail, same.head ▸ head⟩
    exact ⟨((tidy.1.of_sameList same).dropped stays).add.2, add_head_ne_none _ _⟩
  · exact ⟨tidy.1.of_sameList same, by rw [same.head]; exact tidy.2⟩

/-- The first removal of a tail breaks the list. -/
theorem broken_of_losesTail (tidy : pool.Tidy ∧ pool.head ≠ none) (loss : LosesTail pool event)
    (willing : event.answers.succeed) (died : pool.death event = some next)
    (still : next.closing = false) : next.Broken := by
  obtain ⟨passes, removal⟩ := loss
  rcases death_open willing died still with ⟨checked, -, same, dead, rfl⟩ | ⟨blocked, -⟩
  · obtain ⟨last, tail, reached, -⟩ := tidy.1.tailLast tidy.2
    cases removal.1.symm.trans tail
    have shape := same.shape tidy.1.toShape
    have lost : checked.TailRemoval event.ref :=
      ⟨same.tail.trans removal.1, by rw [same.head]; exact removal.2⟩
    obtain ⟨tailGone, haunted⟩ := shape.refuses dead (.inl ⟨lost, (same.reaches _).mpr reached⟩)
    exact .of_refusal (shape.dropped _) tailGone haunted
  · exact absurd passes blocked

private theorem broken_death (broken : pool.Broken) (willing : event.answers.succeed)
    (died : pool.death event = some next) (still : next.closing = false) : next.Broken := by
  rcases death_open willing died still with ⟨checked, -, same, dead, rfl⟩ | ⟨-, same⟩
  · have later := broken.of_sameList same
    obtain ⟨other, reached, notLive⟩ := broken.haunted
    have distinct : other ≠ event.ref := by
      rintro rfl
      rw [(death_cases died).1] at notLive
      contradiction
    obtain ⟨tailGone, haunted⟩ := later.toShape.refuses dead (.inr ⟨later.tailGone, other, distinct,
      (same.reaches other).mpr reached, same.isLive notLive⟩)
    exact .of_refusal (later.toShape.dropped _) tailGone haunted
  · exact broken.of_sameList same

/-- A broken list is never mended. -/
theorem broken_run {deaths : List ConsumerDeath} (broken : pool.Broken)
    (granted : ∀ event ∈ deaths, event.answers.succeed) (ran : run death pool deaths = some next)
    (still : next.closing = false) : next.Broken := by
  induction deaths generalizing pool with
  | nil => cases ran; exact broken
  | cons event rest ih =>
    obtain ⟨willing, later⟩ := List.forall_mem_cons.mp granted
    obtain ⟨middle, died, continued⟩ := run_cons_eq_some.mp ran
    exact ih (broken_death broken willing died (open_of_run later continued still)) later continued

end Deaths

theorem startFrom_tidy {answers : ℕ → ClientAnswers} (willing : ∀ i, (answers i).succeed)
    {first remaining : ℕ} (ran : (startFrom answers first remaining).exec pool = some (.ok (), next))
    (tidy : pool.Tidy) :
    next.Tidy ∧ next.closing = pool.closing ∧ (0 < remaining ∨ pool.head ≠ none → next.head ≠ none) := by
  induction remaining generalizing first pool with
  | zero =>
    cases ran
    exact ⟨tidy, rfl, fun either => either.resolve_left (Nat.lt_irrefl 0)⟩
  | succ remaining ih =>
    rw [startFrom] at ran
    obtain ⟨_, middle, added, rest⟩ := Effect.exec_bind_eq_ok.mp ran
    rw [addNew_exec (willing first)] at added
    have same : (add pool.executors.length pool.withNew).2 = middle :=
      congrArg Prod.snd (Option.some.inj added)
    subst same
    obtain ⟨later, closing, listed⟩ := ih rest tidy.add.2
    exact ⟨later, closing.trans (add_closing _ _), fun _ => listed (.inr (add_head_ne_none _ _))⟩

theorem start_tidy {config : ExecutorPoolConfig ε} {clock : Clock} {answers : ℕ → ClientAnswers}
    (constructed : new config clock = .ok fresh) (willing : ∀ i, (answers i).succeed)
    (complete : (start answers).exec fresh = some (.ok (), started)) :
    started.Tidy ∧ started.head ≠ none := by
  obtain ⟨atLeastOne, -, rfl⟩ := new_eq_ok constructed
  rw [start, Effect.exec_get_bind] at complete
  obtain ⟨tidy, -, listed⟩ := startFrom_tidy willing complete
    ⟨⟨by simp, by simp [nextOf], by simp⟩, by simp, by simp⟩
  exact ⟨tidy, listed (.inl (by change 0 < config.poolSize.toNat; omega))⟩

/-- `next` comes from `pool` by things that stop, kill and unlink executors and subscribe none. -/
def Retires (pool next : JobQueueExecutorPool ε π) : Prop :=
  ∀ after ∈ next.executors, ∃ before ∈ pool.executors,
    after.subscribed = before.subscribed ∧ before.stopCalls ≤ after.stopCalls

private theorem EveryWorkerStopped.retires (stopped : EveryWorkerStopped pool) (retires : Retires pool next) :
    EveryWorkerStopped next := by
  intro after member subscribed
  obtain ⟨before, known, registered, calls⟩ := retires after member
  have once := Nat.lt_of_lt_of_le (stopped before known (registered ▸ subscribed)).1 calls
  exact ⟨once, Executor.isLive_of_stopped once⟩

private theorem retires_closeBy {cause : CloseCause}
    (same : next.executors = pool.executors ∨ next.executors = pool.executors.map (·.closeBy cause)) :
    Retires pool next := by
  intro after member
  rcases same with same | same <;> rw [same] at member
  · exact ⟨after, member, rfl, Nat.le_refl _⟩
  · obtain ⟨before, known, rfl⟩ := List.mem_map.mp member
    exact ⟨before, known, rfl, Nat.le_refl _⟩

private theorem retires_of_closeBy {cause : CloseCause}
    (same : next.executors = pool.executors ∨ next.executors = pool.executors.map (·.closeBy cause)) :
    Retires next pool := by
  intro before known
  rcases same with same | same
  · exact ⟨before, same ▸ known, rfl, Nat.le_refl _⟩
  · exact ⟨before.closeBy cause, same ▸ List.mem_map_of_mem known, rfl, Nat.le_refl _⟩

private theorem retires_sameList (same : SameList pool next) : Retires pool next := by
  intro after member
  obtain ⟨ref, read⟩ := List.mem_iff_getElem?.mp member
  obtain ⟨before, readBefore, -, -, registered, calls, -⟩ := same.executor ref after read
  exact ⟨before, List.mem_of_getElem? readBefore, registered, Nat.le_of_eq calls.symm⟩

private theorem retires_dropped (pool : JobQueueExecutorPool ε π) (ref : ExecutorRef) :
    Retires pool (pool.dropped ref) := by
  intro after member
  obtain ⟨other, read⟩ := List.mem_iff_getElem?.mp member
  obtain ⟨middle, readMiddle, same⟩ := getElem?_modify_eq_some.mp read
  have view : unlinked middle ∈ pool.executors.map unlinked := by
    rw [← remove_unlinked pool ref]
    exact List.mem_map_of_mem (List.mem_of_getElem? readMiddle)
  obtain ⟨before, known, alike⟩ := List.mem_map.mp view
  have registered : middle.subscribed = before.subscribed :=
    (congrArg (·.subscribed) alike).symm
  have calls : before.stopCalls = middle.stopCalls := congrArg (·.stopCalls) alike
  refine ⟨before, known, ?_⟩
  rw [same]
  split
  · exact ⟨registered, calls ▸ Nat.le_succ _⟩
  · exact ⟨registered, Nat.le_of_eq calls⟩

section Closing

variable [ExecutorFailureEnforcer ε]

/-- How `stopExecutors` comes to run: by `stop`, by `stopNow`, and by a callback that halts the
pool. -/
inductive Closes (pool closed : JobQueueExecutorPool ε π) : Prop
  | stop (block blockAfterKill : Bool) (code : StopCode)
    (returned : (stop block blockAfterKill).exec pool = some (.ok code, closed))
  | stopNow (block : Bool) (code : StopCode)
    (returned : (stopNow block).exec pool = some (.ok code, closed))
  | halt (event : ConsumerDeath) (granted : event.answers.succeed)
    (died : pool.death event = some closed) (closing : closed.closing = true)

/-- An open pool is closed by one run of `stopExecutors` on the list it has. -/
theorem Closes.cases (closes : Closes pool closed) (still : pool.closing = false) :
    closed.closing = true ∧ ∃ source stopped, SameList pool source ∧ source.closing = false ∧
      (stopExecutors (ε := ε)).exec source = some (.ok (), stopped) ∧ Retires stopped closed ∧
      Retires closed stopped := by
  have itself : SameList pool pool :=
    ⟨rfl, rfl, rfl, fun ref after read => ⟨after, read, rfl, rfl, rfl, rfl, id⟩⟩
  cases closes with
  | stop block blockAfterKill code returned =>
    obtain ⟨stopped, ran, closing, same⟩ := stop_spec returned
    exact ⟨closing.trans (stopExecutors_closing ran).2, pool, stopped, itself, still, ran,
      retires_closeBy same, retires_of_closeBy same⟩
  | stopNow block code returned =>
    obtain ⟨-, stopped, ran, rfl⟩ := stopNow_spec returned
    exact ⟨(stopExecutors_closing ran).2, pool, stopped, itself, still, ran,
      retires_closeBy (.inr rfl), retires_of_closeBy (.inr rfl)⟩
  | halt event granted died closing =>
    rcases (death_cases died).2.2 with ⟨checked, result, -, same, ran⟩ |
      ⟨checked, result, -, same, ran⟩ | ⟨-, same, -⟩
    · rw [replace_closing granted ran, same.closing] at closing
      exact absurd (closing.symm.trans still) (by decide)
    · obtain ⟨-, stopped, stop, rfl⟩ := stopNow_spec ran
      exact ⟨closing, checked, stopped, sameList_kill same, same.closing.trans still, stop,
        retires_closeBy (.inr rfl), retires_of_closeBy (.inr rfl)⟩
    · rw [same.closing] at closing
      exact absurd (closing.symm.trans still) (by decide)

private theorem everyWorkerStopped_of_tidy (tidy : pool.Tidy) (still : pool.closing = false)
    (closes : Closes pool closed) : EveryWorkerStopped closed := by
  obtain ⟨-, source, stopped, same, closing, ran, retires, -⟩ := closes.cases still
  refine EveryWorkerStopped.retires (fun after member subscribed => ?_) retires
  obtain ⟨-, -, -, -, -, -, effect⟩ := stopExecutors_spec closing ran
  obtain ⟨ref, read⟩ := List.mem_iff_getElem?.mp member
  obtain ⟨before, readBefore, changed⟩ := effect ref after read
  have once : 0 < after.stopCalls := by
    rcases (tidy.of_sameList same).accounted ref before readBefore
      (changed.subscribed ▸ subscribed) with already | reached
    · exact Nat.lt_of_lt_of_le already changed.stopCalls_le
    · exact changed.stopped reached
  exact ⟨once, Executor.isLive_of_stopped once⟩

private theorem not_everyWorkerStopped_of_broken (broken : pool.Broken) (still : pool.closing = false)
    (closes : Closes pool closed) : ¬ EveryWorkerStopped closed := by
  intro everyone
  obtain ⟨-, source, stopped, same, closing, ran, -, back⟩ := closes.cases still
  obtain ⟨ref, before, readBefore, subscribed, never, unlinked⟩ := broken.missed.of_sameList same
  obtain ⟨-, -, -, -, -, length, effect⟩ := stopExecutors_spec closing ran
  obtain ⟨inside, -⟩ := List.getElem?_eq_some_iff.mp readBefore
  rw [← length] at inside
  obtain ⟨known, readKnown, changed⟩ := effect ref _ (List.getElem?_eq_getElem inside)
  cases readBefore.symm.trans readKnown
  have unharmed := changed.untouched unlinked
  have called := (everyone.retires back _ (List.getElem_mem inside) (unharmed ▸ subscribed)).1
  rw [unharmed, never] at called
  omega

/-- A closed pool subscribes nobody, so its workers stay stopped. -/
theorem everyWorkerStopped_death
    (stopped : pool.closing = true ∧ EveryWorkerStopped pool) (died : pool.death event = some next) :
    next.closing = true ∧ EveryWorkerStopped next := by
  rcases (death_cases died).2.2 with ⟨checked, result, -, same, ran⟩ |
    ⟨checked, result, -, same, ran⟩ | ⟨-, same, -⟩
  · have closing := same.closing.trans stopped.1
    rw [replace_of_closing closing] at ran
    cases ran
    exact ⟨(dropped_closing _ _).trans closing,
      (stopped.2.retires (retires_sameList (sameList_kill same))).retires (retires_dropped _ _)⟩
  · have closing := same.closing.trans stopped.1
    obtain ⟨-, final, stop, rfl⟩ := stopNow_spec ran
    rw [stopExecutors_of_closing closing] at stop
    cases stop
    exact ⟨closing, (stopped.2.retires (retires_sameList (sameList_kill same))).retires
      (retires_closeBy (.inr rfl))⟩
  · exact ⟨same.closing.trans stopped.1, stopped.2.retires (retires_sameList (sameList_kill same))⟩

/-- Whatever the order of the deaths, the list is tidy or broken, and it is broken exactly if one
of them lost the tail. -/
theorem tidy_or_broken {deaths : List ConsumerDeath} (tidy : pool.Tidy ∧ pool.head ≠ none)
    (granted : ∀ event ∈ deaths, event.answers.succeed) (ran : run death pool deaths = some next)
    (still : next.closing = false) :
    (next.Tidy ∧ Along death (fun source event => ¬ LosesTail source event) pool deaths) ∨
    (next.Broken ∧ ¬ Along death (fun source event => ¬ LosesTail source event) pool deaths) := by
  induction deaths generalizing pool with
  | nil => cases ran; exact .inl ⟨tidy.1, .nil⟩
  | cons event rest ih =>
    obtain ⟨willing, later⟩ := List.forall_mem_cons.mp granted
    obtain ⟨middle, died, continued⟩ := run_cons_eq_some.mp ran
    have middleOpen := open_of_run later continued still
    rw [Along.cons_iff died]
    by_cases loss : LosesTail pool event
    · refine .inr ⟨?_, fun along => along.1 loss⟩
      exact broken_run (broken_of_losesTail tidy loss willing died middleOpen) later continued still
    · rcases ih (tidy_death tidy loss willing died middleOpen) later continued with
        ⟨final, along⟩ | ⟨final, lost⟩
      · exact .inl ⟨final, loss, along⟩
      · exact .inr ⟨final, fun along => lost along.2⟩

/-- Closing the pool stops every worker, then and for good, if and only if no death before it
made `remove` forget the tail. -/
theorem everyWorkerStopped_iff (config : ExecutorPoolConfig ε) (clock : Clock)
    (answers : ℕ → ClientAnswers) (deaths : List ConsumerDeath)
    (constructed : new config clock = .ok fresh) (willing : ∀ i, (answers i).succeed)
    (complete : (start answers).exec fresh = some (.ok (), started))
    (granted : ∀ event ∈ deaths, event.answers.succeed)
    (ran : run death started deaths = some pool) (still : pool.closing = false)
    (closes : Closes pool closed) :
    (∀ final, Reachable death closed final → EveryWorkerStopped final) ↔
      Along death (fun source event => ¬ LosesTail source event) started deaths := by
  rcases tidy_or_broken (start_tidy constructed willing complete) granted ran still with
    ⟨tidy, along⟩ | ⟨broken, lost⟩
  · refine iff_of_true (fun final reached => ?_) along
    have closing := (closes.cases still).1
    exact (reached.invariant (motive := fun current => current.closing = true ∧
      EveryWorkerStopped current) (fun _ _ _ inv died => everyWorkerStopped_death inv died)
      ⟨closing, everyWorkerStopped_of_tidy tidy still closes⟩).2
  · exact iff_of_false (fun everyone =>
      not_everyWorkerStopped_of_broken broken still closes (everyone closed (.refl closed))) lost

end Closing

/-- Two workers, and the head dies before the pool is stopped: both are reached. -/
theorem everyWorkerStopped_iff_head :
    ∃ fresh started pool closed : JobQueueExecutorPool MaxFailureEnforcer Unit,
      new ⟨"jobs", 2, maxTotalFailures 5⟩ (Stream'.const 0) = .ok fresh ∧
      (start fun _ => {}).exec fresh = some (.ok (), started) ∧
      run death started [⟨0, .broker, {}⟩] = some pool ∧
      (stopNow false).exec pool = some (.ok .forced, closed) ∧
      ((∀ final, Reachable death closed final → EveryWorkerStopped final) ↔
        Along death (fun source event => ¬ LosesTail source event) started [⟨0, .broker, {}⟩]) := by
  refine ⟨_, _, _, (stopNow_returns _).choose, rfl, rfl, rfl, (stopNow_returns _).choose_spec, ?_⟩
  exact everyWorkerStopped_iff ⟨"jobs", 2, maxTotalFailures 5⟩ (Stream'.const 0) (fun _ => {})
    [⟨0, .broker, {}⟩] rfl (fun _ => ⟨rfl, rfl⟩) rfl (by simp [ClientAnswers.succeed]) rfl rfl
    (.stopNow false .forced (stopNow_returns _).choose_spec)

/-- Two workers, and the second dies before the pool is stopped: its replacement consumes on. -/
theorem replacement_never_stopped :
    ∃ fresh started pool closed : JobQueueExecutorPool MaxFailureEnforcer Unit,
      new ⟨"jobs", 2, maxTotalFailures 5⟩ (Stream'.const 0) = .ok fresh ∧
      (start fun _ => {}).exec fresh = some (.ok (), started) ∧
      run death started [⟨1, .broker, {}⟩] = some pool ∧
      (∃ code, (stop true true).exec pool = some (.ok code, closed)) ∧
      closed.executors.map (fun executor => (executor.subscribed, executor.stopCalls,
        executor.isLive)) = [(true, 1, false), (true, 2, false), (true, 0, true)] ∧
      ¬ EveryWorkerStopped closed := by
  have view : (((start fun _ => {}).exec ({
        poolSize := 2, queueName := "jobs", failureChecker := maxTotalFailures 5
        clock := Stream'.const 0, threads := { size := 2 } } :
        JobQueueExecutorPool MaxFailureEnforcer Unit)).bind fun started =>
      (run death started.2 [⟨1, .broker, {}⟩]).bind fun pool =>
      ((stop true true).exec pool).map fun closed => (started.1.toOption, closed.1.toOption,
        closed.2.executors.map fun executor => (executor.subscribed, executor.stopCalls,
          executor.isLive))) =
      some (some (), some .graceful, [(true, 1, false), (true, 2, false), (true, 0, true)]) := by
    decide +kernel
  obtain ⟨⟨_ | _, started⟩, complete, view⟩ := Option.bind_eq_some_iff.mp view
  · obtain ⟨pool, ran, view⟩ := Option.bind_eq_some_iff.mp view
    obtain ⟨closed, -, same⟩ := Option.map_eq_some_iff.mp view
    cases same
  · obtain ⟨pool, ran, view⟩ := Option.bind_eq_some_iff.mp view
    obtain ⟨⟨_ | code, closed⟩, stopped, same⟩ := Option.map_eq_some_iff.mp view
    · cases same
    · have workers : closed.executors.map (fun executor => (executor.subscribed,
          executor.stopCalls, executor.isLive)) =
            [(true, 1, false), (true, 2, false), (true, 0, true)] := congrArg (·.2.2) same
      refine ⟨_, started, pool, closed, rfl, complete, ran, ⟨code, stopped⟩, workers, ?_⟩
      intro everyone
      have missed : (true, 0, true) ∈ closed.executors.map (fun executor =>
          (executor.subscribed, executor.stopCalls, executor.isLive)) := by simp [workers]
      obtain ⟨executor, member, seen⟩ := List.mem_map.mp missed
      simp only [Prod.mk.injEq] at seen
      exact Nat.ne_of_gt (everyone executor member seen.1).1 seen.2.1

end RabbitJobQueue.Soundness.StopReach
