import Mathlib.Algebra.GroupWithZero.Nat
import RabbitJobQueue.Machine.Heap
import RabbitJobQueue.Machine.Run

/-! # A server that serves one request at a time

Requests arrive at any time and wait in a queue; the server takes them in order, without pause, and
each occupies it for a time of its own. Time passes by explicit steps, and only while there is nothing
to do at once. When a request is completed is a recursion over the requests before it, with a closed
form: the server is late for a request exactly if some request before it, with all the work that
follows it, is.
-/

namespace RabbitJobQueue.Machine

variable {ρ : Type*}

structure Request (ρ : Type*) where
  arrival : ℕ
  payload : ρ
deriving DecidableEq, Repr

/-- The server with everything that has arrived, the times at which requests were completed, in order,
and the time at which the request being served will be. -/
structure SerialServer (ρ : Type*) where
  now : ℕ := 0
  arrived : List (Request ρ) := []
  completed : List ℕ := []
  busyUntil : Option ℕ := none
deriving DecidableEq, Repr

inductive ServerAction (ρ : Type*)
  | arrive (payload : ρ)
  | begin
  | complete
  | pass (time : ℕ)
deriving DecidableEq, Repr

namespace SerialServer

variable (service : ρ → ℕ)

/-- When the server, free from `free` on, is done with the requests. -/
def finish (free : ℕ) (requests : List (Request ρ)) : ℕ :=
  requests.foldl (fun free request => max free request.arrival + service request.payload) free

/-- The time it takes to serve the requests. -/
def work (requests : List (Request ρ)) : ℕ := (requests.map fun request => service request.payload).sum

def step (server : SerialServer ρ) : ServerAction ρ → Option (SerialServer ρ)
  | .arrive payload => some { server with arrived := server.arrived ++ [⟨server.now, payload⟩] }
  | .begin =>
    if server.busyUntil.isSome then none
    else (server.arrived[server.completed.length]?).map fun request =>
      { server with busyUntil := some (server.now + service request.payload) }
  | .complete =>
    if server.busyUntil = some server.now then
      some { server with completed := server.completed ++ [server.now], busyUntil := none }
    else none
  | .pass time =>
    match server.busyUntil with
    | some done =>
      if server.now + time ≤ done then some { server with now := server.now + time } else none
    | none =>
      if server.arrived.length ≤ server.completed.length then
        some { server with now := server.now + time }
      else none

variable {service} {free bound : ℕ} {requests : List (Request ρ)} {server next : SerialServer ρ}
  {action : ServerAction ρ} {actions : List (ServerAction ρ)}

@[simp] theorem finish_nil : finish service free [] = free := rfl

private theorem finish_cons (request : Request ρ) : finish service free (request :: requests) =
    finish service (max free request.arrival + service request.payload) requests := rfl

private theorem finish_concat (request : Request ρ) : finish service free (requests ++ [request]) =
    max (finish service free requests) request.arrival + service request.payload := by
  simp [finish]

@[simp] theorem work_nil : work service [] = 0 := rfl

@[simp] theorem work_cons (request : Request ρ) :
    work service (request :: requests) = service request.payload + work service requests := by
  simp [work]

/-- The closed form of the recursion. -/
theorem finish_le_iff : finish service free requests ≤ bound ↔
    free + work service requests ≤ bound ∧ ∀ index request, requests[index]? = some request →
      request.arrival + work service (requests.drop index) ≤ bound := by
  induction requests generalizing free with
  | nil => simp
  | cons first rest ih =>
    rw [finish_cons, ih, work_cons]
    constructor
    · rintro ⟨total, later⟩
      refine ⟨by omega, fun index request read => ?_⟩
      cases index with
      | zero =>
        cases read
        rw [List.drop_zero, work_cons]
        omega
      | succ index => exact later index request read
    · rintro ⟨total, each⟩
      have now := each 0 first rfl
      rw [List.drop_zero, work_cons] at now
      exact ⟨by omega, fun index request read => each (index + 1) request read⟩

/-- More requests take longer. -/
theorem le_finish : free ≤ finish service free requests := by
  induction requests generalizing free with
  | nil => exact Nat.le_refl _
  | cons first rest ih =>
    rw [finish_cons]
    exact Nat.le_trans (by omega) ih

private theorem finish_take_mono {first second : ℕ} (order : first ≤ second) :
    finish service free (requests.take first) ≤ finish service free (requests.take second) := by
  obtain ⟨more, rfl⟩ := Nat.exists_eq_add_of_le order
  rw [List.take_add, finish, finish, List.foldl_append]
  exact le_finish

/-- The requests have been completed when the recursion says, and the one in turn will be. -/
structure Timely (service : ρ → ℕ) (server : SerialServer ρ) : Prop where
  arrivals : ∀ request ∈ server.arrived, request.arrival ≤ server.now
  served : server.completed.length ≤ server.arrived.length
  completed : ∀ index done, server.completed[index]? = some done →
    done = finish service 0 (server.arrived.take (index + 1))
  elapsed : finish service 0 (server.arrived.take server.completed.length) ≤ server.now
  busy : ∀ done, server.busyUntil = some done →
    server.now ≤ done ∧ server.completed.length < server.arrived.length ∧
      done = finish service 0 (server.arrived.take (server.completed.length + 1))
  idle : server.busyUntil = none → ∀ request, server.arrived[server.completed.length]? = some request →
    server.now = max (finish service 0 (server.arrived.take server.completed.length)) request.arrival

theorem timely_initial : Timely service ({} : SerialServer ρ) := by
  refine ⟨by simp, by simp, by simp, by simp, by simp, by simp⟩

/-- The request in turn, after those that have been completed. -/
theorem take_turn {request : Request ρ} {index : ℕ} (read : requests[index]? = some request) :
    requests.take (index + 1) = requests.take index ++ [request] := by
  rw [List.take_add_one, read]
  rfl

namespace Timely

private theorem arrive (timely : Timely service server) (payload : ρ) :
    Timely service { server with arrived := server.arrived ++ [⟨server.now, payload⟩] } := by
  have ⟨arrivals, served, completed, elapsed, busy, idle⟩ := timely
  have earlier (index : ℕ) (inside : index ≤ server.arrived.length) :
      (server.arrived ++ [(⟨server.now, payload⟩ : Request ρ)]).take index = server.arrived.take index :=
    List.take_append_of_le_length inside
  have more : (server.arrived ++ [(⟨server.now, payload⟩ : Request ρ)]).length =
      server.arrived.length + 1 := List.length_append
  refine ⟨?_, Nat.le_trans served (more ▸ Nat.le_succ _), ?_, ?_, ?_, ?_⟩
  · intro request member
    rcases List.mem_append.mp member with old | new
    · exact arrivals request old
    · exact Nat.le_of_eq (congrArg Request.arrival (List.mem_singleton.mp new))
  · intro index done read
    have inside : index < server.completed.length := (List.getElem?_eq_some_iff.mp read).1
    rw [earlier _ (by omega)]
    exact completed index done read
  · rw [earlier _ served]
    exact elapsed
  · intro done same
    obtain ⟨before, waiting, due⟩ := busy done same
    refine ⟨before, Nat.lt_trans waiting (more ▸ Nat.lt_succ_self _), ?_⟩
    rw [earlier _ waiting]
    exact due
  · intro free request read
    rw [earlier _ served]
    rcases getElem?_alloc_eq_some.mp read with old | ⟨last, rfl⟩
    · exact idle free request old
    · exact (Nat.max_eq_right elapsed).symm

private theorem begin {request : Request ρ} (timely : Timely service server) (free : server.busyUntil = none)
    (read : server.arrived[server.completed.length]? = some request) :
    Timely service { server with busyUntil := some (server.now + service request.payload) } := by
  have ⟨arrivals, served, completed, elapsed, _, idle⟩ := timely
  refine ⟨arrivals, served, completed, elapsed, ?_, by simp⟩
  rintro done ⟨⟩
  refine ⟨Nat.le_add_right _ _, (List.getElem?_eq_some_iff.mp read).1, ?_⟩
  rw [take_turn read, finish_concat, ← idle free request read]

private theorem complete (timely : Timely service server) (due : server.busyUntil = some server.now) :
    Timely service { server with completed := server.completed ++ [server.now], busyUntil := none } := by
  have ⟨arrivals, served, completed, _, busy, _⟩ := timely
  obtain ⟨-, waiting, same⟩ := busy server.now due
  have more : (server.completed ++ [server.now]).length = server.completed.length + 1 := List.length_append
  refine ⟨arrivals, ?_, ?_, ?_, by simp, ?_⟩
  · rw [more]
    exact waiting
  · intro index done read
    rcases getElem?_alloc_eq_some.mp read with old | ⟨rfl, rfl⟩
    · exact completed index done old
    · exact same
  · rw [more]
    exact Nat.le_of_eq same.symm
  · intro _ request read
    rw [more, ← same]
    exact (Nat.max_eq_left (arrivals request (List.mem_of_getElem? read))).symm

private theorem pass {time : ℕ} (timely : Timely service server)
    (due : ∀ done, server.busyUntil = some done → server.now + time ≤ done)
    (nothing : server.busyUntil = none → server.arrived.length ≤ server.completed.length) :
    Timely service { server with now := server.now + time } := by
  have ⟨arrivals, served, completed, elapsed, busy, _⟩ := timely
  refine ⟨fun request member => Nat.le_add_right_of_le (arrivals request member), served, completed,
    Nat.le_add_right_of_le elapsed, ?_, ?_⟩
  · intro done same
    exact ⟨due done same, (busy done same).2⟩
  · intro free request read
    have inside : server.completed.length < server.arrived.length := (List.getElem?_eq_some_iff.mp read).1
    have exhausted := nothing free
    omega

private theorem step (timely : Timely service server) (stepped : server.step service action = some next) :
    Timely service next := by
  cases action with
  | arrive payload => cases stepped; exact timely.arrive payload
  | begin =>
    unfold SerialServer.step at stepped
    dsimp only at stepped
    split at stepped
    · contradiction
    · next free =>
      obtain ⟨request, read, same⟩ := Option.map_eq_some_iff.mp stepped
      subst same
      exact timely.begin (Option.not_isSome_iff_eq_none.mp free) read
  | complete =>
    unfold SerialServer.step at stepped
    dsimp only at stepped
    split at stepped
    · next due => cases stepped; exact timely.complete due
    · contradiction
  | pass time =>
    unfold SerialServer.step at stepped
    dsimp only at stepped
    split at stepped
    · next done due =>
      split at stepped <;> cases stepped
      next within =>
      exact timely.pass (fun other same => by cases due.symm.trans same; exact within) (by simp [due])
    · next free =>
      split at stepped <;> cases stepped
      next nothing =>
      exact timely.pass (by simp [free]) fun _ => nothing

end Timely

theorem timely_of_run (timely : Timely service server)
    (ran : run (SerialServer.step service) server actions = some next) : Timely service next :=
  run_invariant (fun _ _ _ timely stepped => timely.step stepped) timely ran

/-- The request in turn gets completed. -/
theorem exists_serve (timely : Timely service server)
    (waiting : server.completed.length < server.arrived.length) : ∃ actions next,
    run (SerialServer.step service) server actions = some next ∧
      (∀ payload, .arrive payload ∉ actions) ∧ next.arrived = server.arrived ∧
      next.completed.length = server.completed.length + 1 := by
  cases busy : server.busyUntil with
  | some done =>
    have before := (timely.busy done busy).1
    have due : server.now + (done - server.now) = done := Nat.add_sub_cancel' before
    refine ⟨[.pass (done - server.now), .complete], { server with
      now := done, completed := server.completed ++ [done], busyUntil := none }, ?_, by simp, rfl, by simp⟩
    simp [run_cons, SerialServer.step, busy, due]
  | none =>
    obtain ⟨request, read⟩ : ∃ request, server.arrived[server.completed.length]? = some request :=
      ⟨_, List.getElem?_eq_getElem waiting⟩
    refine ⟨[.begin, .pass (service request.payload), .complete], { server with
      now := server.now + service request.payload
      completed := server.completed ++ [server.now + service request.payload]
      busyUntil := none }, ?_, by simp, rfl, by simp⟩
    simp [run_cons, SerialServer.step, busy, read]

/-- The server gets through with what has arrived, without anything more arriving. -/
theorem exists_drain (timely : Timely service server) : ∃ actions next,
    run (SerialServer.step service) server actions = some next ∧
      (∀ payload, .arrive payload ∉ actions) ∧ next.arrived = server.arrived ∧
      next.completed.length = server.arrived.length := by
  induction left : server.arrived.length - server.completed.length generalizing server with
  | zero =>
    have served := timely.served
    exact ⟨[], server, rfl, by simp, rfl, by omega⟩
  | succ left ih =>
    obtain ⟨first, middle, ran, none, same, one⟩ := exists_serve timely (by omega)
    obtain ⟨rest, next, continued, noneLater, sameLater, all⟩ :=
      ih (timely_of_run timely ran) (by rw [same, one]; omega)
    refine ⟨first ++ rest, next, run_append_eq_some.mpr ⟨middle, ran, continued⟩, ?_,
      sameLater.trans same, all.trans (congrArg List.length same)⟩
    intro payload member
    rcases List.mem_append.mp member with inFirst | inRest
    · exact none payload inFirst
    · exact noneLater payload inRest

private theorem step_arrived (stepped : server.step service action = some next) :
    next.arrived = server.arrived ∨
      ∃ payload, action = .arrive payload ∧ next.arrived = server.arrived ++ [⟨server.now, payload⟩] := by
  cases action with
  | arrive payload => cases stepped; exact .inr ⟨payload, rfl, rfl⟩
  | begin =>
    unfold SerialServer.step at stepped
    dsimp only at stepped
    split at stepped
    · contradiction
    · obtain ⟨request, -, rfl⟩ := Option.map_eq_some_iff.mp stepped
      exact .inl rfl
  | complete =>
    unfold SerialServer.step at stepped
    dsimp only at stepped
    split at stepped <;> cases stepped
    exact .inl rfl
  | pass time =>
    unfold SerialServer.step at stepped
    dsimp only at stepped
    split at stepped <;> split at stepped <;> cases stepped <;> exact .inl rfl

/-- A run without arrivals leaves the requests as they are. -/
theorem arrived_of_run (none : ∀ payload, .arrive payload ∉ actions)
    (ran : run (SerialServer.step service) server actions = some next) : next.arrived = server.arrived := by
  have quiet : Along (SerialServer.step service) (fun _ action => action ∈ actions) server actions :=
    .of_forall fun _ member => member
  refine run_invariant_along (motive := fun later => later.arrived = server.arrived) ?_ rfl quiet ran
  intro source action target same member stepped
  rcases step_arrived stepped with kept | ⟨payload, rfl, -⟩
  · exact kept.trans same
  · exact absurd member (none payload)

/-- What has arrived at a server that began with nothing are the arrivals of the run. -/
theorem arrive_mem_of_run {request : Request ρ}
    (ran : run (SerialServer.step service) {} actions = some server) (member : request ∈ server.arrived) :
    .arrive request.payload ∈ actions := by
  have meets : Along (SerialServer.step service) (fun _ action => action ∈ actions) {} actions :=
    .of_forall fun _ member => member
  refine run_invariant_along (motive := fun later : SerialServer ρ => ∀ request ∈ later.arrived,
    .arrive request.payload ∈ actions) ?_ (by simp) meets ran request member
  intro source action target known asked stepped one inside
  rcases step_arrived stepped with kept | ⟨payload, rfl, more⟩
  · exact known one (kept ▸ inside)
  · rw [more] at inside
    rcases List.mem_append.mp inside with old | new
    · exact known one old
    · rw [List.mem_singleton.mp new]
      exact asked

/-- No request has been completed later than `timeout` after its arrival, and none is overdue. -/
structure InTime (timeout : ℕ) (server : SerialServer ρ) : Prop where
  completed : ∀ (index : ℕ) (request : Request ρ) (done : ℕ), server.arrived[index]? = some request →
    server.completed[index]? = some done → done ≤ request.arrival + timeout
  waiting : ∀ (index : ℕ) (request : Request ρ), server.arrived[index]? = some request →
    server.completed.length ≤ index → server.now ≤ request.arrival + timeout

/-- While a request waits or is served, the time it will be completed lies ahead. -/
theorem Timely.now_le {index : ℕ} (timely : Timely service server) (inside : index < server.arrived.length)
    (waiting : server.completed.length ≤ index) :
    server.now ≤ finish service 0 (server.arrived.take (index + 1)) := by
  have later : finish service 0 (server.arrived.take (server.completed.length + 1)) ≤
      finish service 0 (server.arrived.take (index + 1)) := finish_take_mono (by omega)
  cases busy : server.busyUntil with
  | some done =>
    obtain ⟨before, -, due⟩ := timely.busy done busy
    omega
  | none =>
    have turn : server.completed.length < server.arrived.length := by omega
    have read := List.getElem?_eq_getElem turn
    have now := timely.idle busy _ read
    rw [take_turn read, finish_concat, ← now] at later
    omega

/-- A server stays in time with what has arrived if and only if for any two requests, the second not
before the first, the work from the first to the second fits into the time from the arrival of the
first to the deadline of the second. -/
theorem inTime_iff {timeout : ℕ} (timely : Timely service server) :
    (∀ actions next, (∀ payload, .arrive payload ∉ actions) →
      run (SerialServer.step service) server actions = some next → InTime timeout next) ↔
    ∀ (i j : ℕ) (first last : Request ρ), i ≤ j → server.arrived[i]? = some first →
      server.arrived[j]? = some last →
      first.arrival + work service ((server.arrived.take (j + 1)).drop i) ≤ last.arrival + timeout := by
  constructor
  · intro inTime i j first last order readFirst readLast
    obtain ⟨actions, next, ran, none, same, all⟩ := exists_drain timely
    have inside := (List.getElem?_eq_some_iff.mp readLast).1
    obtain ⟨done, completed⟩ : ∃ done, next.completed[j]? = some done :=
      ⟨_, List.getElem?_eq_getElem (all ▸ inside)⟩
    have bound := (inTime actions next none ran).completed j last done (same ▸ readLast) completed
    rw [(timely_of_run timely ran).completed j done completed, same] at bound
    apply (finish_le_iff.mp bound).2 i first
    rw [List.getElem?_take_of_lt (Nat.lt_succ_of_le order)]
    exact readFirst
  · intro fits actions next none ran
    have same := arrived_of_run none ran
    have later := timely_of_run timely ran
    have bound (j : ℕ) (last : Request ρ) (readLast : next.arrived[j]? = some last) :
        finish service 0 (next.arrived.take (j + 1)) ≤ last.arrival + timeout := by
      rw [same] at readLast ⊢
      refine finish_le_iff.mpr ⟨?_, fun i first readFirst => ?_⟩
      · have inside := (List.getElem?_eq_some_iff.mp readLast).1
        have whole := fits 0 j _ last (Nat.zero_le j) (List.getElem?_eq_getElem (by omega)) readLast
        rw [List.drop_zero] at whole
        omega
      · have inside := (List.getElem?_eq_some_iff.mp readFirst).1
        rw [List.length_take] at inside
        rw [List.getElem?_take_of_lt (by omega)] at readFirst
        exact fits i j first last (by omega) readFirst readLast
    refine ⟨fun index request done read completed => ?_, fun index request read waiting => ?_⟩
    · rw [later.completed index done completed]
      exact bound index request read
    · exact Nat.le_trans (later.now_le (List.getElem?_eq_some_iff.mp read).1 waiting) (bound index request read)

end SerialServer

end RabbitJobQueue.Machine
