import Mathlib.Data.List.Basic
import Mathlib.Data.List.Perm.Basic

/-! # An at-least-once message broker

A queue with explicit acknowledgement: a ready message is handed to one open channel and held
there under a delivery tag until it is acknowledged, which removes it, or until its channel is
closed, which makes it ready again. Channels and messages are arbitrary types. No operation loses
or duplicates a message: each one permutes the inventory of ready, held and removed messages.
-/

namespace RabbitJobQueue.Machine

/-- A message handed out on a channel and not yet acknowledged. -/
structure Held (κ μ : Type*) where
  tag : ℕ
  channel : κ
  message : μ
deriving DecidableEq, Repr

structure Broker (κ μ : Type*) where
  ready : List μ := []
  unacked : List (Held κ μ) := []
  removed : List (Held κ μ) := []
deriving DecidableEq, Repr

namespace Broker

variable {κ μ : Type*} (broker : Broker κ μ)

def publish (message : μ) : Broker κ μ := { broker with ready := broker.ready ++ [message] }

/-- Hand the ready message at `position` to a channel; the choice of the position is the broker's. -/
def deliver (position tag : ℕ) (channel : κ) : Option (Broker κ μ × μ) :=
  (broker.ready[position]?).map fun message =>
    ({ broker with
      ready := broker.ready.eraseIdx position
      unacked := broker.unacked ++ [⟨tag, channel, message⟩] }, message)

/-- Acknowledge one delivery (`multiple` is false). -/
def ack (tag : ℕ) : Broker κ μ :=
  { broker with
    unacked := broker.unacked.filter (·.tag != tag)
    removed := broker.removed ++ broker.unacked.filter (·.tag == tag) }

/-- Requeue whatever is held on a closed channel. -/
def requeue (closed : κ → Bool) : Broker κ μ :=
  { broker with
    ready := broker.ready ++ (broker.unacked.filter fun held => closed held.channel).map (·.message)
    unacked := broker.unacked.filter fun held => !closed held.channel }

/-- Every message the broker has ever accepted, wherever it is now. -/
def inventory : List μ :=
  broker.ready ++ (broker.unacked.map (·.message) ++ broker.removed.map (·.message))

variable {broker} {position tag : ℕ} {channel : κ} {message : μ} {next : Broker κ μ}

theorem deliver_eq_some : broker.deliver position tag channel = some (next, message) ↔
    broker.ready[position]? = some message ∧ next = { broker with
      ready := broker.ready.eraseIdx position
      unacked := broker.unacked ++ [⟨tag, channel, message⟩] } := by
  rw [deliver]
  constructor
  · intro delivered
    obtain ⟨found, read, same⟩ := Option.map_eq_some_iff.mp delivered
    cases same
    exact ⟨read, rfl⟩
  · rintro ⟨read, rfl⟩
    rw [read, Option.map_some]

theorem publish_inventory (broker : Broker κ μ) (message : μ) :
    (broker.publish message).inventory.Perm (message :: broker.inventory) := by
  simp only [publish, inventory, List.append_assoc, List.singleton_append]
  exact List.perm_middle

theorem deliver_inventory (delivered : broker.deliver position tag channel = some (next, message)) :
    next.inventory.Perm broker.inventory := by
  obtain ⟨read, rfl⟩ := deliver_eq_some.mp delivered
  obtain ⟨inside, rfl⟩ := List.getElem?_eq_some_iff.mp read
  simp only [inventory, List.map_append, List.map_cons, List.map_nil, List.append_assoc,
    List.singleton_append]
  have moved : (broker.ready[position] :: broker.ready.eraseIdx position).Perm broker.ready :=
    List.getElem_cons_eraseIdx_perm inside
  calc
    (broker.ready.eraseIdx position ++ (broker.unacked.map (·.message) ++
        broker.ready[position] :: broker.removed.map (·.message))).Perm
      (broker.ready.eraseIdx position ++ broker.ready[position] ::
        (broker.unacked.map (·.message) ++ broker.removed.map (·.message))) :=
      List.perm_middle.append_left _
    List.Perm _ (broker.ready[position] :: broker.ready.eraseIdx position ++
        (broker.unacked.map (·.message) ++ broker.removed.map (·.message))) := List.perm_middle
    List.Perm _ _ := moved.append_right _

private theorem partition_map (held : List (Held κ μ)) (test : Held κ μ → Bool) :
    ((held.filter test).map (·.message) ++ (held.filter fun one => !test one).map (·.message)).Perm
      (held.map (·.message)) := by
  rw [← List.map_append]
  exact (List.filter_append_perm test held).map _

theorem ack_inventory (broker : Broker κ μ) (tag : ℕ) :
    (broker.ack tag).inventory.Perm broker.inventory := by
  simp only [ack, inventory, List.map_append]
  apply List.Perm.append_left _
  have parts := partition_map broker.unacked (·.tag == tag)
  calc
    ((broker.unacked.filter (·.tag != tag)).map (·.message) ++ (broker.removed.map (·.message) ++
        (broker.unacked.filter (·.tag == tag)).map (·.message))).Perm
      ((broker.unacked.filter (·.tag == tag)).map (·.message) ++
        (broker.unacked.filter (·.tag != tag)).map (·.message) ++ broker.removed.map (·.message)) := by
      rw [← List.append_assoc]
      apply List.perm_append_comm.trans
      rw [List.append_assoc]
    List.Perm _ _ := parts.append_right _

theorem requeue_inventory (broker : Broker κ μ) (closed : κ → Bool) :
    (broker.requeue closed).inventory.Perm broker.inventory := by
  simp only [requeue, inventory, List.append_assoc]
  apply List.Perm.append_left _
  rw [← List.append_assoc]
  exact (partition_map broker.unacked fun held => closed held.channel).append_right _

theorem mem_unacked_ack {held : Held κ μ} :
    held ∈ (broker.ack tag).unacked ↔ held ∈ broker.unacked ∧ held.tag ≠ tag := by
  simp only [ack, List.mem_filter, bne_iff_ne]

theorem mem_removed_ack {held : Held κ μ} :
    held ∈ (broker.ack tag).removed ↔ held ∈ broker.removed ∨ (held ∈ broker.unacked ∧ held.tag = tag) := by
  simp only [ack, List.mem_append, List.mem_filter, beq_iff_eq]

theorem mem_unacked_requeue {held : Held κ μ} {closed : κ → Bool} :
    held ∈ (broker.requeue closed).unacked ↔ held ∈ broker.unacked ∧ closed held.channel = false := by
  simp only [requeue, List.mem_filter, Bool.not_eq_eq_eq_not, Bool.not_true]

@[simp] theorem requeue_removed (closed : κ → Bool) : (broker.requeue closed).removed = broker.removed :=
  rfl

/-- A message the broker has accepted is ready, held on a channel, or removed. -/
theorem mem_inventory {one : μ} : one ∈ broker.inventory ↔ one ∈ broker.ready ∨
    (∃ held ∈ broker.unacked, held.message = one) ∨ ∃ held ∈ broker.removed, held.message = one := by
  simp only [inventory, List.mem_append, List.mem_map]

/-- The tags of the deliveries that are held or have been acknowledged. -/
def tags (broker : Broker κ μ) : List ℕ := (broker.unacked ++ broker.removed).map (·.tag)

theorem mem_tags : tag ∈ broker.tags ↔
    (∃ held ∈ broker.unacked, held.tag = tag) ∨ ∃ held ∈ broker.removed, held.tag = tag := by
  simp only [tags, List.map_append, List.mem_append, List.mem_map]

theorem deliver_tags (delivered : broker.deliver position tag channel = some (next, message)) :
    next.tags.Perm (tag :: broker.tags) := by
  obtain ⟨-, rfl⟩ := deliver_eq_some.mp delivered
  simp only [tags, List.append_assoc, List.map_append, List.map_cons, List.singleton_append]
  exact List.perm_middle

theorem ack_tags (broker : Broker κ μ) (tag : ℕ) : (broker.ack tag).tags.Perm broker.tags := by
  apply List.Perm.map
  have parts := List.filter_append_perm (fun held : Held κ μ => held.tag == tag) broker.unacked
  calc
    (broker.unacked.filter (·.tag != tag) ++ (broker.removed ++ broker.unacked.filter (·.tag == tag))).Perm
      (broker.unacked.filter (·.tag == tag) ++ broker.unacked.filter (·.tag != tag) ++ broker.removed) := by
      rw [← List.append_assoc]
      apply List.perm_append_comm.trans
      rw [List.append_assoc]
    List.Perm _ _ := parts.append_right _

theorem requeue_tags (broker : Broker κ μ) (closed : κ → Bool) :
    (broker.requeue closed).tags.Sublist broker.tags :=
  (List.filter_sublist.append (List.Sublist.refl _)).map _

end Broker

end RabbitJobQueue.Machine
