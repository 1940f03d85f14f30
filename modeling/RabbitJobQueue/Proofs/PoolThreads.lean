import RabbitJobQueue.Model.PoolThreads
import RabbitJobQueue.Proofs.PoolPrimitives

/-! # What one statement of the pool's threads can do

`code_evolves` bounds what any statement does to the pool, and `code_more` says which statements it
may put in front of the rest. Whatever is proved about all interleavings uses these two and not the
statements themselves.
-/

namespace RabbitJobQueue.Model

open Machine

/-- What time does to an executor: nothing that has happened to it is undone. -/
structure Ages (before after : Executor) : Prop where
  subscribed : before.subscribed = true → after.subscribed = true
  signalled : before.signalled = true → after.signalled = true
  closedBy : ∀ cause, before.channel.closedBy = some cause → after.channel.closedBy = some cause
  stopCalls : before.stopCalls ≤ after.stopCalls

namespace Ages

variable {before middle after executor : Executor}

theorem refl (executor : Executor) : Ages executor executor :=
  ⟨id, id, fun _ => id, Nat.le_refl _⟩

private theorem trans (first : Ages before middle) (second : Ages middle after) : Ages before after :=
  ⟨second.subscribed ∘ first.subscribed, second.signalled ∘ first.signalled,
    fun cause closed => second.closedBy cause (first.closedBy cause closed),
    Nat.le_trans first.stopCalls second.stopCalls⟩

private theorem stop : Ages executor executor.stop :=
  ⟨id, id, fun _ => Channel.closedBy_close, Nat.le_succ _⟩

theorem closeBy {cause : CloseCause} : Ages executor (executor.closeBy cause) :=
  ⟨id, id, fun _ => Channel.closedBy_close, Nat.le_refl _⟩

private theorem die {cause : CloseCause} : Ages executor (executor.die cause) :=
  ⟨id, fun _ => rfl, fun _ => Channel.closedBy_close, Nat.le_refl _⟩

theorem isOpen (ages : Ages before after) (open' : after.channel.isOpen = true) :
    before.channel.isOpen = true := by
  unfold Channel.isOpen at open' ⊢
  cases closed : before.channel.closedBy with
  | none => rfl
  | some cause => rw [ages.closedBy cause closed] at open'; contradiction

end Ages

namespace JobQueueExecutorPool

variable {ε π : Type} {pool middle next : JobQueueExecutorPool ε π} {ref : ExecutorRef}
  {executor : Executor}

/-- Executors are only added, each of them only ages, closing stays, and the tasks are left to the
worker threads. -/
structure Evolves (pool next : JobQueueExecutorPool ε π) : Prop where
  executors : ∀ (ref : ExecutorRef) (before : Executor), pool.executors[ref]? = some before →
    ∃ after, next.executors[ref]? = some after ∧ Ages before after
  closing : pool.closing = true → next.closing = true
  tasks : next.threads.tasks = pool.threads.tasks

namespace Evolves

private theorem refl (pool : JobQueueExecutorPool ε π) : Evolves pool pool :=
  ⟨fun _ before read => ⟨before, read, .refl before⟩, id, rfl⟩

theorem update {change : Executor → Executor} (ages : ∀ executor, Ages executor (change executor)) :
    Evolves pool (pool.update ref change) := by
  refine ⟨fun a before read => ?_, id, rfl⟩
  rw [update_executors, List.getElem?_modify, read]
  refine ⟨_, rfl, ?_⟩
  dsimp only
  split
  · exact ages before
  · exact .refl before

theorem isOpen (evolves : Evolves pool next) (open' : next.isOpen ref = true)
    (inside : ref < pool.executors.length) : pool.isOpen ref = true := by
  obtain ⟨after, read, stillOpen⟩ := isOpen_iff.mp open'
  obtain ⟨_, readAfter, ages⟩ := evolves.executors ref _ (List.getElem?_eq_getElem inside)
  cases read.symm.trans readAfter
  exact isOpen_iff.mpr ⟨_, List.getElem?_eq_getElem inside, ages.isOpen stillOpen⟩

theorem length_le (evolves : Evolves pool next) : pool.executors.length ≤ next.executors.length := by
  by_contra fewer
  rw [Nat.not_le] at fewer
  obtain ⟨after, read, -⟩ := evolves.executors _ _ (List.getElem?_eq_getElem fewer)
  rw [List.getElem?_eq_none (Nat.le_refl _)] at read
  contradiction

end Evolves

/-- A statement relinks executors, stops one, constructs one, subscribes an open one, or closes all
channels. -/
inductive Touches (pool next : JobQueueExecutorPool ε π) : Prop
  | relinks (same : next.executors.map unlinked = pool.executors.map unlinked)
  | stops (ref : ExecutorRef) (same : next.executors = pool.executors.modify ref Executor.stop)
  | constructs (id : String) (same : next.executors = pool.executors ++ [({ id } : Executor)])
  | subscribes (ref : ExecutorRef) (opened : pool.isOpen ref = true)
      (same : next.executors = pool.executors.modify ref ({ · with subscribed := true }))
  | aborts (same : next.executors = pool.executors.map (·.closeBy .connectionAbort))

/-- What touches nothing but the links ages nobody. -/
theorem ages_of_unlinked {before after : Executor} (alike : unlinked after = unlinked before) :
    Ages before after := by
  have subscribed : after.subscribed = before.subscribed := congrArg (·.subscribed) alike
  have signalled : after.signalled = before.signalled := congrArg (·.signalled) alike
  have channel : after.channel = before.channel := congrArg (·.channel) alike
  have stopCalls : after.stopCalls = before.stopCalls := congrArg (·.stopCalls) alike
  exact ⟨by rw [subscribed]; exact id, by rw [signalled]; exact id, by rw [channel]; exact fun _ => id,
    Nat.le_of_eq stopCalls.symm⟩

private theorem Touches.ages (touches : Touches pool next) {before : Executor}
    (read : pool.executors[ref]? = some before) :
    ∃ after, next.executors[ref]? = some after ∧ Ages before after := by
  cases touches with
  | relinks same =>
    have view := congrArg (·[ref]?) same
    simp only [List.getElem?_map, read, Option.map_some, Option.map_eq_some_iff] at view
    obtain ⟨after, readAfter, alike⟩ := view
    exact ⟨after, readAfter, ages_of_unlinked alike⟩
  | stops other same =>
    rw [same, List.getElem?_modify, read]
    refine ⟨_, rfl, ?_⟩
    dsimp only
    split
    · exact .stop
    · exact .refl before
  | constructs id same => exact ⟨before, by rw [same]; exact getElem?_alloc_of_some read, .refl before⟩
  | subscribes other opened same =>
    rw [same, List.getElem?_modify, read]
    refine ⟨_, rfl, ?_⟩
    dsimp only
    split
    · exact ⟨fun _ => rfl, id, fun _ => id, Nat.le_refl _⟩
    · exact .refl before
  | aborts same =>
    exact ⟨_, by rw [same, List.getElem?_map, read, Option.map_some], .closeBy⟩

/-- `createNew` puts one executor behind those constructed before. -/
theorem createNew_fresh {answers : ClientAnswers} {ex : ExecutorRef}
    (created : (createNew answers).exec pool = some (.ok ex, next)) :
    ex = pool.executors.length ∧ next.executors.length = pool.executors.length + 1 := by
  rw [createNew, Effect.exec_modify_bind, Effect.exec_get_bind] at created
  cases provided : answers.channelProvider with
  | error exception => rw [provided] at created; cases created
  | ok _ =>
    rw [provided] at created
    cases created
    exact ⟨rfl, by simp⟩

private theorem createNew_inside {answers : ClientAnswers} {ex : ExecutorRef}
    (created : (createNew answers).exec pool = some (.ok ex, next)) : ex < next.executors.length := by
  obtain ⟨rfl, length⟩ := createNew_fresh created
  rw [length]
  exact Nat.lt_succ_self _

/-- `detach` only unlinks. -/
theorem detach_spec {fuel : ℕ} {head : Option ExecutorRef} {result : Except Throwable (List ExecutorRef)}
    (ran : (detach fuel head).exec pool = some (result, next)) :
    (∃ refs, result = .ok refs) ∧ next = { pool with executors := next.executors } ∧
      next.executors.map unlinked = pool.executors.map unlinked := by
  induction fuel generalizing head pool result with
  | zero =>
    cases head with
    | none => cases ran; exact ⟨⟨[], rfl⟩, rfl, rfl⟩
    | some first => cases ran
  | succ fuel ih =>
    cases head with
    | none => cases ran; exact ⟨⟨[], rfl⟩, rfl, rfl⟩
    | some first =>
      rw [detach] at ran
      simp only [Effect.exec_get_bind, Effect.exec_modify_bind] at ran
      rcases Effect.exec_bind_eq_some.mp ran with ⟨rest, final, later, ran⟩ | ⟨exception, later, -⟩
      · cases ran
        obtain ⟨-, frame, same⟩ := ih later
        refine ⟨⟨first :: rest, rfl⟩, by rw [frame]; rfl, ?_⟩
        rw [same, setNext_unlinked, setPrev_unlinked]
      · obtain ⟨⟨refs, impossible⟩, -⟩ := ih later
        contradiction

end JobQueueExecutorPool

namespace Instr

open JobQueueExecutorPool

variable {ε π : Type} {pool next : JobQueueExecutorPool ε π}
  {answers : ClientAnswers} {expired : Bool} {instr : Instr} {result : Except Throwable (List Instr)}

/-- The statement creates an executor, subscribes one or links one. -/
def establishes : Instr → Bool
  | .createNew | .init _ | .add _ => true
  | _ => false

/-- What a statement does to the pool. -/
structure Performs (instr : Instr) (pool next : JobQueueExecutorPool ε π) : Prop where
  touches : Touches pool next
  tasks : next.threads.tasks = pool.threads.tasks
  failuresMarked : next.failuresMarked = pool.failuresMarked + if instr = .markFailure then 1 else 0
  closing : instr ≠ .stopExecutors → next.closing = pool.closing
  stays : pool.closing = true → next.closing = true

/-- Which statements do what to the heap of executors: every statement may relink it. -/
inductive Alters (pool next : JobQueueExecutorPool ε π) : Instr → Prop
  | relinks (instr : Instr) (same : next.executors.map unlinked = pool.executors.map unlinked) :
      Alters pool next instr
  | constructs (id : String) (same : next.executors = pool.executors ++ [({ id } : Executor)]) :
      Alters pool next .createNew
  | subscribes (ref : ExecutorRef) (opened : pool.isOpen ref = true)
      (same : next.executors = pool.executors.modify ref ({ · with subscribed := true })) :
      Alters pool next (.init ref)
  | stops (ref : ExecutorRef) (same : next.executors = pool.executors.modify ref Executor.stop) :
      Alters pool next (.stop ref)
  | aborts (same : next.executors = pool.executors.map (·.closeBy .connectionAbort)) :
      Alters pool next .shutdownCB

private theorem Performs.of_checker (same : SameButChecker pool next)
    (failuresMarked : next.failuresMarked = pool.failuresMarked + if instr = .markFailure then 1 else 0) :
    Performs instr pool next :=
  ⟨.relinks (by rw [same.executors]), by rw [same], failuresMarked, fun _ => same.closing,
    by rw [same.closing]; exact id⟩

private theorem Performs.of_enforce {α : Type} {method : Effect Throwable (ε × Clock) α}
    {answer : Except Throwable α} (other : instr ≠ .markFailure)
    (called : (enforce (π := π) method).exec pool = some (answer, next)) : Performs instr pool next :=
  .of_checker (enforce_same called) (by rw [enforce_failuresMarked called, if_neg other, Nat.add_zero])

private theorem Performs.of_relinks (other : instr ≠ .markFailure) (relinks : Relinks pool next) :
    Performs instr pool next :=
  ⟨.relinks relinks.unlinked, by rw [relinks.frame], by rw [relinks.frame, if_neg other, Nat.add_zero],
    fun _ => relinks.closing, by rw [relinks.closing]; exact id⟩

private theorem createNew_performs {created : Except Throwable ExecutorRef}
    (ran : (JobQueueExecutorPool.createNew answers).exec pool = some (created, next)) :
    Performs .createNew pool next := by
  rw [JobQueueExecutorPool.createNew, Effect.exec_modify_bind, Effect.exec_get_bind] at ran
  cases provided : answers.channelProvider with
  | error exception =>
    rw [provided] at ran
    cases ran
    exact ⟨.relinks rfl, rfl, rfl, fun _ => rfl, id⟩
  | ok _ =>
    rw [provided] at ran
    cases ran
    exact ⟨.constructs _ rfl, rfl, rfl, fun _ => rfl, id⟩

private theorem init_performs {ex : ExecutorRef} {subscribed : Except Throwable Unit}
    (ran : (JobQueueExecutorPool.init ex answers).exec pool = some (subscribed, next)) :
    Performs (.init ex) pool next := by
  rw [JobQueueExecutorPool.init] at ran
  cases consumed : answers.basicConsume with
  | error exception =>
    rw [consumed] at ran
    cases ran
    exact ⟨.relinks rfl, rfl, rfl, fun _ => rfl, id⟩
  | ok _ =>
    rw [consumed] at ran
    simp only [Effect.exec_get_bind] at ran
    split at ran
    · next opened =>
      cases ran
      exact ⟨.subscribes ex opened rfl, rfl, rfl, fun _ => rfl, id⟩
    · cases ran
      exact ⟨.relinks rfl, rfl, rfl, fun _ => rfl, id⟩

variable [ExecutorFailureEnforcer ε]

theorem code_performs (ran : (instr.code answers expired).exec pool = some (result, next)) :
    Performs instr pool next := by
  cases instr with
  | markFailure =>
    obtain ⟨_, mark, -⟩ := Effect.of_exec_bind_pure ran
    exact .of_checker (markFailure_same mark) (markFailure_failuresMarked mark)
  | shouldHalt ex =>
    rcases Effect.exec_bind_eq_some.mp ran with ⟨halts, checked, check, ran⟩ | ⟨exception, check, -⟩
    · cases halts <;> cases ran <;> exact .of_enforce (by simp) check
    · exact .of_enforce (by simp) check
  | reason =>
    obtain ⟨_, tell, -⟩ := Effect.of_exec_bind_pure ran
    exact .of_enforce (by simp) tell
  | remove ex => cases ran; exact .of_relinks (by simp) (remove_relinks _ _)
  | stop ex => cases ran; exact ⟨.stops ex rfl, rfl, rfl, fun _ => rfl, id⟩
  | unlessClosing =>
    rw [code, Effect.exec_get_bind] at ran
    split at ran <;> cases ran <;> exact ⟨.relinks rfl, rfl, rfl, fun _ => rfl, id⟩
  | createNew =>
    obtain ⟨_, create, -⟩ := Effect.of_exec_bind_pure ran
    exact createNew_performs create
  | init ex =>
    obtain ⟨_, subscribe, -⟩ := Effect.of_exec_bind_pure ran
    exact init_performs subscribe
  | add ex =>
    obtain ⟨_, link, -⟩ := Effect.of_exec_bind_pure ran
    have linked : (JobQueueExecutorPool.add ex pool).2 = next := congrArg Prod.snd (Option.some.inj link)
    rw [← linked]
    exact .of_relinks (by simp) (add_relinks _ _)
  | stopExecutors =>
    rw [code, Effect.exec_get_bind] at ran
    split at ran
    · cases ran; exact ⟨.relinks rfl, rfl, rfl, fun _ => rfl, id⟩
    · rw [Effect.exec_modify_bind] at ran
      obtain ⟨_, visit, -⟩ := Effect.of_exec_bind_pure ran
      obtain ⟨-, frame, same⟩ := detach_spec visit
      exact ⟨.relinks same, by rw [frame], by rw [frame]; rfl, fun other => absurd rfl other,
        fun _ => by rw [frame]⟩
  | unlock => cases ran; exact ⟨.relinks rfl, rfl, rfl, fun _ => rfl, id⟩
  | shutdown => cases ran; exact ⟨.relinks rfl, rfl, rfl, fun _ => rfl, id⟩
  | shutdownNow => cases ran; exact ⟨.relinks rfl, rfl, rfl, fun _ => rfl, id⟩
  | shutdownCB =>
    rw [code, Effect.exec_bind_of_ok (by rw [Effect.exec_swallow]; rfl)] at ran
    cases ran
    exact ⟨.aborts rfl, rfl, rfl, fun _ => rfl, id⟩
  | isTerminated => cases ran; exact ⟨.relinks rfl, rfl, rfl, fun _ => rfl, id⟩
  | awaitKillAfter blockAfterKill =>
    rw [code, Effect.exec_get_bind] at ran
    split at ran
    · cases ran; exact ⟨.relinks rfl, rfl, rfl, fun _ => rfl, id⟩
    · split at ran <;> cases ran
      exact ⟨.relinks rfl, rfl, rfl, fun _ => rfl, id⟩
  | awaitTermination =>
    obtain ⟨_, wait, -⟩ := Effect.of_exec_bind_pure ran
    rw [JobQueueExecutorPool.awaitTermination, Effect.exec_get_bind] at wait
    split at wait <;> cases wait
    exact ⟨.relinks rfl, rfl, rfl, fun _ => rfl, id⟩
  | returned code => cases ran

omit [ExecutorFailureEnforcer ε] in
private theorem createNew_alters {created : Except Throwable ExecutorRef}
    (ran : (JobQueueExecutorPool.createNew answers).exec pool = some (created, next)) :
    Alters pool next .createNew := by
  rw [JobQueueExecutorPool.createNew, Effect.exec_modify_bind, Effect.exec_get_bind] at ran
  cases provided : answers.channelProvider with
  | error exception => rw [provided] at ran; cases ran; exact .relinks _ rfl
  | ok _ => rw [provided] at ran; cases ran; exact .constructs _ rfl

omit [ExecutorFailureEnforcer ε] in
private theorem init_alters {ex : ExecutorRef} {subscribed : Except Throwable Unit}
    (ran : (JobQueueExecutorPool.init ex answers).exec pool = some (subscribed, next)) :
    Alters pool next (.init ex) := by
  rw [JobQueueExecutorPool.init] at ran
  cases consumed : answers.basicConsume with
  | error exception => rw [consumed] at ran; cases ran; exact .relinks _ rfl
  | ok _ =>
    rw [consumed] at ran
    simp only [Effect.exec_get_bind] at ran
    split at ran
    · next opened => cases ran; exact .subscribes ex opened rfl
    · cases ran; exact .relinks _ rfl

/-- A statement alters the heap in its own way only. -/
theorem code_alters (ran : (instr.code answers expired).exec pool = some (result, next)) :
    Alters pool next instr := by
  cases instr with
  | markFailure =>
    obtain ⟨_, mark, -⟩ := Effect.of_exec_bind_pure ran
    exact .relinks _ (by rw [(markFailure_same mark).executors])
  | shouldHalt ex =>
    rcases Effect.exec_bind_eq_some.mp ran with ⟨halts, checked, check, ran⟩ | ⟨exception, check, -⟩
    · cases halts <;> cases ran <;> exact .relinks _ (by rw [(enforce_same check).executors])
    · exact .relinks _ (by rw [(enforce_same check).executors])
  | reason =>
    obtain ⟨_, tell, -⟩ := Effect.of_exec_bind_pure ran
    exact .relinks _ (by rw [(enforce_same tell).executors])
  | remove ex => cases ran; exact .relinks _ (remove_relinks _ _).unlinked
  | stop ex => cases ran; exact .stops ex rfl
  | unlessClosing =>
    rw [code, Effect.exec_get_bind] at ran
    split at ran <;> cases ran <;> exact .relinks _ rfl
  | createNew =>
    obtain ⟨_, create, -⟩ := Effect.of_exec_bind_pure ran
    exact createNew_alters create
  | init ex =>
    obtain ⟨_, subscribe, -⟩ := Effect.of_exec_bind_pure ran
    exact init_alters subscribe
  | add ex =>
    obtain ⟨_, link, -⟩ := Effect.of_exec_bind_pure ran
    have linked : (JobQueueExecutorPool.add ex pool).2 = next := congrArg Prod.snd (Option.some.inj link)
    rw [← linked]
    exact .relinks _ (add_relinks _ _).unlinked
  | stopExecutors =>
    rw [code, Effect.exec_get_bind] at ran
    split at ran
    · cases ran; exact .relinks _ rfl
    · rw [Effect.exec_modify_bind] at ran
      obtain ⟨_, visit, -⟩ := Effect.of_exec_bind_pure ran
      obtain ⟨-, -, same⟩ := detach_spec visit
      exact .relinks _ same
  | unlock | shutdown | shutdownNow | isTerminated => cases ran; exact .relinks _ rfl
  | shutdownCB =>
    rw [code, Effect.exec_bind_of_ok (by rw [Effect.exec_swallow]; rfl)] at ran
    cases ran
    exact .aborts rfl
  | awaitKillAfter blockAfterKill =>
    rw [code, Effect.exec_get_bind] at ran
    split at ran
    · cases ran; exact .relinks _ rfl
    · split at ran <;> cases ran
      exact .relinks _ rfl
  | awaitTermination =>
    obtain ⟨_, wait, -⟩ := Effect.of_exec_bind_pure ran
    rw [JobQueueExecutorPool.awaitTermination, Effect.exec_get_bind] at wait
    split at wait <;> cases wait
    exact .relinks _ rfl
  | returned code => cases ran

theorem code_evolves (ran : (instr.code answers expired).exec pool = some (result, next)) :
    Evolves pool next :=
  have performs := code_performs ran
  ⟨fun _ _ read => performs.touches.ages read, performs.stays, performs.tasks⟩

/-- Only `stopExecutors` sets `closing`. -/
theorem code_closing (other : instr ≠ .stopExecutors)
    (ran : (instr.code answers expired).exec pool = some (result, next)) :
    next.closing = pool.closing := (code_performs ran).closing other

/-- `init` throws on a channel that is closed. -/
theorem init_ne_ok {ex : ExecutorRef} {more : List Instr} (closed : pool.isOpen ex = false) :
    ((Instr.init ex).code answers expired).exec pool ≠ some (.ok more, next) := by
  intro ran
  obtain ⟨_, subscribed, subscribe, -⟩ := Effect.exec_bind_eq_ok.mp ran
  rw [JobQueueExecutorPool.init] at subscribe
  cases consumed : answers.basicConsume with
  | error exception => rw [consumed] at subscribe; cases subscribe
  | ok _ =>
    rw [consumed] at subscribe
    simp only [Effect.exec_get_bind, closed] at subscribe
    cases subscribe

/-- Which establishing statements a statement that returns puts in front of the rest: `createNew`
the two that complete it, the check of an open pool `createNew`, and no other any. None puts a
`markFailure` there. -/
theorem code_more {more : List Instr} (ran : (instr.code answers expired).exec pool = some (.ok more, next)) :
    (instr.establishes = false ∧ ∀ other ∈ more, other.establishes = false ∧ other ≠ .markFailure) ∨
      (instr = .unlessClosing ∧ pool.closing = false ∧ more = [.createNew]) ∨
      (instr = .createNew ∧ ∃ ex < next.executors.length, more = [.init ex, .add ex]) ∨
      ((∃ ex, instr = .init ex ∨ instr = .add ex) ∧ more = []) := by
  cases instr with
  | createNew =>
    obtain ⟨ex, created, create, ran⟩ := Effect.exec_bind_eq_ok.mp ran
    cases ran
    exact .inr (.inr (.inl ⟨rfl, ex, createNew_inside create, rfl⟩))
  | init ex =>
    obtain ⟨_, _, -, ran⟩ := Effect.exec_bind_eq_ok.mp ran
    cases ran
    exact .inr (.inr (.inr ⟨⟨ex, .inl rfl⟩, rfl⟩))
  | add ex =>
    obtain ⟨_, _, -, ran⟩ := Effect.exec_bind_eq_ok.mp ran
    cases ran
    exact .inr (.inr (.inr ⟨⟨ex, .inr rfl⟩, rfl⟩))
  | unlessClosing =>
    rw [code, Effect.exec_get_bind] at ran
    split at ran
    · cases ran
      exact .inl (by simp [establishes])
    · next open' =>
      cases ran
      exact .inr (.inl ⟨rfl, eq_false_of_ne_true open', rfl⟩)
  | shouldHalt ex =>
    obtain ⟨halts, checked, check, ran⟩ := Effect.exec_bind_eq_ok.mp ran
    cases halts <;> cases ran <;> exact .inl (by simp [replacement, stopNowCode, establishes])
  | stopExecutors =>
    rw [code, Effect.exec_get_bind] at ran
    split at ran
    · cases ran
      exact .inl (by simp [establishes])
    · rw [Effect.exec_modify_bind] at ran
      obtain ⟨refs, detached, -, ran⟩ := Effect.exec_bind_eq_ok.mp ran
      cases ran
      refine .inl ⟨rfl, fun other member => ?_⟩
      rcases List.mem_append.mp member with stops | unlock
      · obtain ⟨ref, -, rfl⟩ := List.mem_map.mp stops
        exact ⟨rfl, by simp⟩
      · rw [List.mem_singleton.mp unlock]
        exact ⟨rfl, by simp⟩
  | isTerminated => cases ran; exact .inl (by simp [establishes])
  | awaitKillAfter blockAfterKill =>
    rw [code, Effect.exec_get_bind] at ran
    split at ran
    · cases ran
      exact .inl (by simp [establishes])
    · split at ran <;> cases ran
      exact .inl (by cases blockAfterKill <;> simp [establishes])
  | shutdownCB =>
    rw [code, Effect.exec_bind_of_ok (by rw [Effect.exec_swallow]; rfl)] at ran
    cases ran
    exact .inl (by simp [establishes])
  | remove | stop | unlock | shutdown | shutdownNow => cases ran; exact .inl (by simp [establishes])
  | returned => cases ran
  | markFailure | reason | awaitTermination =>
    obtain ⟨_, _, -, ran⟩ := Effect.exec_bind_eq_ok.mp ran
    cases ran
    exact .inl (by simp [establishes])

/-- No statement puts a `markFailure` in front of the rest. -/
theorem markFailure_notMem {more : List Instr}
    (ran : (instr.code answers expired).exec pool = some (.ok more, next)) : .markFailure ∉ more := by
  intro member
  rcases code_more ran with ⟨-, nothing⟩ | ⟨-, -, rfl⟩ | ⟨-, ex, -, rfl⟩ | ⟨-, rfl⟩
  · exact (nothing _ member).2 rfl
  · simp at member
  · simp at member
  · simp at member

end Instr

namespace PoolThreads

open JobQueueExecutorPool

variable {ε π : Type} [ExecutorFailureEnforcer ε] {threads next : PoolThreads ε π}
  {action : PoolAction}

/-- What is left of a thread's code when one of its statements has returned or thrown. -/
def continuation (rest : List Instr) : Except Throwable (List Instr) → List Instr
  | .ok more => more ++ rest
  | .error _ => []

theorem exec_eq_some {activity : ℕ} {answers : ClientAnswers} {expired : Bool} :
    threads.exec activity answers expired = some next ↔ ∃ instr rest result,
      threads.activities[activity]? = some (instr :: rest) ∧
      (instr = .stopExecutors → threads.locked = false) ∧
      (instr.code answers expired).exec threads.pool = some (result, next.pool) ∧
      next.activities = threads.activities.set activity (continuation rest result) := by
  rw [exec]
  split
  · next vacant => simp [vacant]
  · next vacant => simp [vacant]
  · next instr rest read =>
    simp only [read, Option.some.injEq, List.cons.injEq]
    constructor
    · intro ran
      split at ran
      · contradiction
      · next free =>
        obtain ⟨⟨result, pool⟩, returned, same⟩ := Option.map_eq_some_iff.mp ran
        cases same
        refine ⟨instr, rest, result, ⟨rfl, rfl⟩, fun entering => ?_, returned, by cases result <;> rfl⟩
        simpa [entering] using free
    · rintro ⟨instr, rest, result, ⟨rfl, rfl⟩, free, ran, same⟩
      rw [if_neg (by simpa using free), ran]
      obtain ⟨pool, activities⟩ := next
      cases same
      cases result <;> rfl

/-- What a step can be: code that establishes nothing is started, a channel is closed, or a thread
executes a statement. -/
theorem step_cases (stepped : threads.step action = some next) :
    (∃ code, (∀ instr ∈ code, instr.establishes = false) ∧
      next.activities = threads.activities ++ [code] ∧ Evolves threads.pool next.pool ∧
      next.pool.closing = threads.pool.closing) ∨
    (next.activities = threads.activities ∧ Evolves threads.pool next.pool ∧
      next.pool.closing = threads.pool.closing) ∨
    ∃ activity answers expired, action = .exec activity answers expired ∧
      threads.exec activity answers expired = some next := by
  cases action with
  | callStop block blockAfterKill =>
    cases stepped
    refine .inl ⟨_, ?_, rfl, .refl _, rfl⟩
    cases block <;> simp [Instr.stopCode, Instr.establishes]
  | callStopNow block =>
    cases stepped
    refine .inl ⟨_, ?_, rfl, .refl _, rfl⟩
    cases block <;> simp [Instr.stopNowCode, Instr.establishes]
  | close ex cause =>
    unfold step at stepped
    dsimp only at stepped
    split at stepped <;> cases stepped
    exact .inr (.inl ⟨rfl, .update fun _ => .closeBy, rfl⟩)
  | signal ex =>
    obtain ⟨cause, -, same⟩ := Option.map_eq_some_iff.mp stepped
    cases same
    refine .inl ⟨_, ?_, rfl, .update fun _ => .die, rfl⟩
    cases cause.isInitiatedByApplication <;>
      simp [Instr.onConsumerShutdown, Instr.replacement, Instr.establishes]
  | exec activity answers expired => exact .inr (.inr ⟨activity, answers, expired, rfl, stepped⟩)

/-- What a step does to one thread: nothing, or it executes the thread's next statement. -/
theorem step_activity {activity : ℕ} {code : List Instr} (stepped : threads.step action = some next)
    (read : threads.activities[activity]? = some code) :
    next.activities[activity]? = some code ∨ ∃ answers expired instr rest result,
      action = .exec activity answers expired ∧ code = instr :: rest ∧
      (instr.code answers expired).exec threads.pool = some (result, next.pool) ∧
      next.activities[activity]? = some (continuation rest result) := by
  rcases step_cases stepped with ⟨_, -, same, -⟩ | ⟨same, -⟩ | ⟨other, answers, expired, rfl, ran⟩
  · exact .inl (by rw [same]; exact getElem?_alloc_of_some read)
  · exact .inl (by rw [same, read])
  · obtain ⟨instr, rest, result, known, -, ran, same⟩ := exec_eq_some.mp ran
    rw [same, List.getElem?_set]
    by_cases here : other = activity
    · subst here
      cases read.symm.trans known
      obtain ⟨inside, -⟩ := List.getElem?_eq_some_iff.mp read
      exact .inr ⟨answers, expired, instr, rest, result, rfl, rfl, ran, by rw [if_pos rfl, if_pos inside]⟩
    · exact .inl (by rw [if_neg here, read])

theorem step_evolves (stepped : threads.step action = some next) :
    Evolves threads.pool next.pool := by
  rcases step_cases stepped with ⟨_, -, -, evolves, -⟩ | ⟨-, evolves, -⟩ |
    ⟨activity, answers, expired, -, ran⟩
  · exact evolves
  · exact evolves
  · obtain ⟨instr, rest, result, -, -, ran, -⟩ := exec_eq_some.mp ran
    exact Instr.code_evolves ran

end PoolThreads

end RabbitJobQueue.Model
