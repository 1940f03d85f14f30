import RabbitJobQueue.Machine.Run
import RabbitJobQueue.Model.Config

/-! # Settings that are checked when they are assigned

A setter that checks the value it is given keeps its setting valid and refuses nothing else. The setter of
the host name checks the name in the field instead: it lets the first blank name in, and from then on lets
no name in. So the settings are kept exactly as long as nobody assigns a blank host name.
-/

namespace RabbitJobQueue.Soundness.ValidatedSettings

open Machine Model

variable {φ κ : Type} {settings next : Settings φ κ} {assignment : Assignment}
  {assignments : List Assignment}

/-- New configuration objects. -/
def fresh (connectionFactory : φ) (jobTimeoutCallback : κ) : Settings φ κ where
  connection := { connectionFactory }
  executor := { jobTimeoutCallback }

structure Valid (settings : Settings φ κ) : Prop where
  connection : settings.connection.Valid
  executor : settings.executor.Valid

/-- The assignment throws exactly if its value is invalid; then it changes nothing, and otherwise its own
field alone. -/
def Checked (settings : Settings φ κ) (assignment : Assignment) : Prop :=
  ∃ result next, assignment.perform settings = some (result, next) ∧
    ((∃ message, result = .error (.illegalArgument message)) ↔ ¬ assignment.Valid) ∧
    (∀ exception, result = .error exception → next = settings) ∧
    (result = .ok () → next = assignment.write settings)

/-- Along the assignments all settings stay valid and every assignment is checked. -/
def StaysValid (settings : Settings φ κ) (assignments : List Assignment) : Prop :=
  (∀ first reached, first <+: assignments → run Assignment.step settings first = some reached →
    Valid reached) ∧ Along Assignment.step Checked settings assignments

/-- Every default passes its own check. -/
theorem fresh_valid (connectionFactory : φ) (jobTimeoutCallback : κ) :
    Valid (fresh connectionFactory jobTimeoutCallback) where
  connection := {
    hostname := (by decide : isBlank "rabbit" = false)
    hostPort := (by decide : (1 : Int32) ≤ 5672 ∧ (5672 : Int32) ≤ 65535) }
  executor := (by decide : (1 : Int32) ≤ 5)

private theorem checkedSetter_exec {σ α : Type} (invalid : α → Bool) (message : α → String)
    (assign : α → σ → σ) (value : α) (state : σ) : (checkedSetter invalid message assign value).exec state =
      some (if invalid value then (.error (.illegalArgument (some (message value))), state)
        else (.ok (), assign value state)) := by
  rw [checkedSetter]
  split <;> rfl

/-- Whether the host name is assigned does not depend on the name assigned. -/
theorem setHostname_exec (value : String) (config : ConnectionConfig φ) :
    (ConnectionConfig.setHostname value).exec config = some (if isBlank config.hostname
      then (.error (.illegalArgument (some "RabbitMQ hostname cannot be blank")), config)
      else (.ok (), { config with hostname := value })) := by
  rw [ConnectionConfig.setHostname, Effect.exec_get_bind]
  split <;> rfl

/-- An assignment that is refused for its value and leaves everything as it is. -/
theorem checked_of_refused {message : Option String} (invalid : ¬ assignment.Valid)
    (refused : assignment.perform settings = some (.error (.illegalArgument message), settings)) :
    Checked settings assignment :=
  ⟨_, _, refused, iff_of_true ⟨message, rfl⟩ invalid, fun _ _ => rfl, fun returned => by contradiction⟩

private theorem checked_of_written (valid : assignment.Valid)
    (written : assignment.perform settings = some (.ok (), assignment.write settings)) :
    Checked settings assignment := by
  refine ⟨_, _, written, iff_of_false ?_ (not_not_intro valid), ?_, fun _ => rfl⟩
  · rintro ⟨message, thrown⟩
    contradiction
  · intro exception thrown
    contradiction

/-- Where the setter checks the value it is given, the assignment is checked in every state. -/
theorem perform_of_checkedSetter (assignment : Assignment) (other : ∀ value, assignment ≠ .hostname value)
    (settings : Settings φ κ) : ∃ message, assignment.perform settings =
      some (if assignment.Valid then (.ok (), assignment.write settings)
        else (.error (.illegalArgument (some message)), settings)) := by
  cases assignment with
  | hostname value => exact absurd rfl (other value)
  | hostPort value =>
    refine ⟨s!"invalid port number {value}", ?_⟩
    rw [Assignment.perform, ConnectionConfig.setHostPort, checkedSetter_exec, Option.map_some]
    by_cases valid : (Assignment.hostPort value).Valid
    · have inside : 1 ≤ value ∧ value ≤ 65535 := valid
      rw [if_neg (by simpa using inside), if_pos valid]
      rfl
    · have outside : ¬ (1 ≤ value ∧ value ≤ 65535) := valid
      rw [if_pos (by simpa [Classical.or_iff_not_imp_left] using outside), if_neg valid]
  | workers value =>
    refine ⟨"cannot set worker count to a value less than 1", ?_⟩
    rw [Assignment.perform, ExecutorConfig.setWorkers, checkedSetter_exec, Option.map_some]
    by_cases valid : (Assignment.workers value).Valid
    · have enough : 1 ≤ value := valid
      rw [if_neg (by simpa using enough), if_pos valid]
      rfl
    · have few : ¬ 1 ≤ value := valid
      rw [if_pos (by simpa using few), if_neg valid]

private theorem perform_hostname (value : String) (named : isBlank settings.connection.hostname = false) :
    (Assignment.hostname value).perform settings =
      some (.ok (), (Assignment.hostname value).write settings) := by
  rw [Assignment.perform, setHostname_exec, named]
  rfl

private theorem Valid.write (valid : Valid settings) (allowed : assignment.Valid) :
    Valid (assignment.write settings) := by
  cases assignment with
  | hostname value => exact ⟨⟨allowed, valid.connection.hostPort⟩, valid.executor⟩
  | hostPort value => exact ⟨⟨valid.connection.hostname, allowed⟩, valid.executor⟩
  | workers value => exact ⟨valid.connection, allowed⟩

/-- On valid settings every assignment is checked, and leaves them valid, if it is none of a blank name. -/
theorem Valid.step (valid : Valid settings)
    (named : ∀ value, assignment = .hostname value → isBlank value = false) :
    Checked settings assignment ∧
      ∃ next, assignment.step settings = some next ∧ Valid next := by
  by_cases host : ∃ value, assignment = .hostname value
  · obtain ⟨value, rfl⟩ := host
    have written := perform_hostname value valid.connection.hostname
    have allowed : (Assignment.hostname value).Valid := named value rfl
    refine ⟨checked_of_written allowed written, _, ?_, valid.write allowed⟩
    rw [Assignment.step, written, Option.map_some]
  · obtain ⟨message, performed⟩ := perform_of_checkedSetter assignment
      (fun value same => host ⟨value, same⟩) settings
    by_cases allowed : assignment.Valid
    · rw [if_pos allowed] at performed
      refine ⟨checked_of_written allowed performed, _, ?_, valid.write allowed⟩
      rw [Assignment.step, performed, Option.map_some]
    · rw [if_neg allowed] at performed
      refine ⟨checked_of_refused allowed performed, settings, ?_, valid⟩
      rw [Assignment.step, performed, Option.map_some]

/-- A blank name is let in where a name that is not blank is replaced. -/
theorem not_checked_of_blank (valid : Valid settings) {value : String} (blank : isBlank value = true) :
    ¬ Checked settings (.hostname value) := by
  rintro ⟨result, next, performed, throws, -, -⟩
  rw [perform_hostname value valid.connection.hostname] at performed
  cases performed
  obtain ⟨message, thrown⟩ := throws.mpr fun allowed => by
    rw [show isBlank value = false from allowed] at blank
    contradiction
  contradiction

private theorem run_valid (valid : Valid settings)
    (named : ∀ value, .hostname value ∈ assignments → isBlank value = false)
    (ran : run Assignment.step settings assignments = some next) : Valid next := by
  induction assignments generalizing settings with
  | nil =>
    cases ran
    exact valid
  | cons assignment rest ih =>
    obtain ⟨middle, stepped, continued⟩ := run_cons_eq_some.mp ran
    have first : ∀ value, assignment = .hostname value → isBlank value = false :=
      fun value same => named value (same ▸ List.mem_cons_self)
    obtain ⟨-, reached, same, kept⟩ := valid.step first
    cases same.symm.trans stepped
    exact ih kept (fun value member => named value (List.mem_cons_of_mem _ member)) continued

private theorem along_checked (valid : Valid settings)
    (named : ∀ value, .hostname value ∈ assignments → isBlank value = false) :
    Along Assignment.step Checked settings assignments := by
  intro before assignment after reached split ran
  have kept := run_valid valid
    (fun value member => named value (by rw [split]; exact List.mem_append_left _ member)) ran
  refine (kept.step fun value same => named value ?_).1
  rw [split, same]
  exact List.mem_append_right _ List.mem_cons_self

private theorem step_returns (settings : Settings φ κ) (assignment : Assignment) :
    ∃ next, assignment.step settings = some next := by
  cases assignment <;> simp only [Assignment.step, Assignment.perform, setHostname_exec,
    ConnectionConfig.setHostPort, ExecutorConfig.setWorkers, checkedSetter_exec, Option.map_some]
  all_goals exact ⟨_, rfl⟩

private theorem run_returns (settings : Settings φ κ) (assignments : List Assignment) :
    ∃ next, run Assignment.step settings assignments = some next := by
  induction assignments generalizing settings with
  | nil => exact ⟨settings, rfl⟩
  | cons assignment rest ih =>
    obtain ⟨middle, stepped⟩ := step_returns settings assignment
    obtain ⟨next, ran⟩ := ih middle
    exact ⟨next, run_cons_eq_some.mpr ⟨middle, stepped, ran⟩⟩

/-- Once the host name is blank, no assignment ever replaces it. -/
theorem blank_hostname_stays (blank : isBlank settings.connection.hostname = true)
    (ran : run Assignment.step settings assignments = some next) :
    next.connection.hostname = settings.connection.hostname := by
  refine run_invariant (motive := fun reached : Settings φ κ =>
    reached.connection.hostname = settings.connection.hostname) ?_ rfl ran
  intro reached assignment after same stepped
  obtain ⟨⟨result, left⟩, performed, rfl⟩ := Option.map_eq_some_iff.mp stepped
  by_cases host : ∃ value, assignment = .hostname value
  · obtain ⟨value, rfl⟩ := host
    rw [Assignment.perform, setHostname_exec, if_pos (by rw [same]; exact blank)] at performed
    cases performed
    exact same
  · obtain ⟨message, computed⟩ := perform_of_checkedSetter assignment
      (fun value equal => host ⟨value, equal⟩) reached
    rw [computed] at performed
    split at performed
    · cases performed
      cases assignment with
      | hostname value => exact absurd ⟨value, rfl⟩ host
      | hostPort value => exact same
      | workers value => exact same
    · cases performed
      exact same

/-- From new configuration objects, the settings stay valid and every assignment is checked if and only if
no assignment is of a blank host name. -/
theorem staysValid_iff_hosts_named (connectionFactory : φ) (jobTimeoutCallback : κ)
    (assignments : List Assignment) :
    StaysValid (fresh connectionFactory jobTimeoutCallback) assignments ↔
      ∀ value, .hostname value ∈ assignments → isBlank value = false := by
  have initial := fresh_valid connectionFactory jobTimeoutCallback
  constructor
  · rintro ⟨reachesValid, checked⟩ value member
    obtain ⟨before, after, split⟩ := List.append_of_mem member
    obtain ⟨reached, ran⟩ := run_returns (fresh connectionFactory jobTimeoutCallback) before
    by_contra blank
    rw [Bool.not_eq_false] at blank
    refine not_checked_of_blank (reachesValid before reached ?_ ran) blank
      (checked before _ after reached split ran)
    exact ⟨_, split.symm⟩
  · intro named
    refine ⟨?_, along_checked initial named⟩
    intro first reached start ran
    exact run_valid initial (fun value member => named value (start.subset member)) ran

/-- A blank name is assigned without an exception, and a good name is refused after it. -/
theorem blank_hostname_accepted :
    run Assignment.step (fresh () ()) [.hostname ""] = some ((Assignment.hostname "").write (fresh () ())) ∧
      ¬ StaysValid (fresh () ()) [.hostname ""] ∧
      (Assignment.hostname "rabbit2").perform ((Assignment.hostname "").write (fresh () ())) =
        some (.error (.illegalArgument (some "RabbitMQ hostname cannot be blank")),
          (Assignment.hostname "").write (fresh () ())) := by
  have accepted : (Assignment.hostname "").perform (fresh () ()) =
      some (.ok (), (Assignment.hostname "").write (fresh () ())) :=
    perform_hostname "" (fresh_valid () ()).connection.hostname
  refine ⟨?_, ?_, ?_⟩
  · rw [run_singleton, Assignment.step, accepted, Option.map_some]
  · rintro ⟨-, checked⟩
    exact not_checked_of_blank (fresh_valid () ()) rfl checked.head
  · rw [Assignment.perform, setHostname_exec]
    rfl

end RabbitJobQueue.Soundness.ValidatedSettings
