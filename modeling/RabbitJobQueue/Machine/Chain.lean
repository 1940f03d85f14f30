import Mathlib.Logic.Relation

/-! # Singly linked chains

`next` is any assignment of at most one successor to each node, and `Linked` says that a node is
met on the way from the head. Taking the head off, appending behind the last node, and clearing
the link of a visited node each have one lemma; none of them assumes that the chain is free of
cycles. A chain that ends is described by the list of its nodes (`Follows`), and it ends when every
link leads on in some order.
-/

namespace RabbitJobQueue.Machine

variable {α : Type*}

/-- Following `next` from `head` comes to `node`. -/
def Linked (next : α → Option α) (head : Option α) (node : α) : Prop :=
  ∃ first, head = some first ∧ Relation.ReflTransGen (fun a b => next a = some b) first node

namespace Linked

variable {next later : α → Option α} {head : Option α} {first last node new a b : α}

theorem head_self : Linked next (some first) first := ⟨first, rfl, .refl⟩

theorem ne_none (linked : Linked next head node) : head ≠ none := by
  obtain ⟨first, rfl, -⟩ := linked
  exact Option.some_ne_none first

private theorem hop (linked : Linked next head a) (link : next a = some b) : Linked next head b := by
  obtain ⟨first, start, path⟩ := linked
  exact ⟨first, start, path.tail link⟩

/-- A chain depends only on the links that exist. -/
theorem mono (kept : ∀ a b, next a = some b → later a = some b) (linked : Linked next head node) :
    Linked later head node := by
  obtain ⟨first, start, path⟩ := linked
  exact ⟨first, start, Relation.ReflTransGen.mono kept _ _ path⟩

theorem of_next (linked : Linked next (next first) node) : Linked next (some first) node := by
  obtain ⟨second, start, path⟩ := linked
  exact ⟨first, rfl, .head start path⟩

/-- Whatever the head leads to is still met from its successor, even once the head's own link is
gone: the way there need not pass the head again. -/
theorem advance_cleared [DecidableEq α] (linked : Linked next (some first) node)
    (distinct : node ≠ first) :
    Linked (fun a => if a = first then none else next a) (next first) node := by
  obtain ⟨start, same, path⟩ := linked
  cases same
  induction path with
  | refl => exact absurd rfl distinct
  | @tail a b _ link ih =>
    by_cases back : a = first
    · subst back
      exact ⟨b, link, .refl⟩
    · exact (ih back).hop (by rw [if_neg back]; exact link)

theorem advance (linked : Linked next (some first) node) (distinct : node ≠ first) :
    Linked next (next first) node := by
  classical
  apply (linked.advance_cleared distinct).mono
  intro a b link
  split at link
  · contradiction
  · exact link

/-- Appending behind the last node of a chain adds exactly the new node to it. -/
theorem append_iff [DecidableEq α] (linked : Linked next head last) (atEnd : next last = none)
    (fresh : next new = none) :
    Linked (fun a => if a = last then some new else next a) head node ↔
      Linked next head node ∨ node = new := by
  constructor
  · rintro ⟨first, start, path⟩
    induction path with
    | refl => exact .inl ⟨first, start, .refl⟩
    | @tail a b _ link ih =>
      dsimp only at link
      by_cases here : a = last
      · rw [if_pos here] at link
        exact .inr (Option.some.inj link).symm
      · rw [if_neg here] at link
        rcases ih with known | rfl
        · exact .inl (known.hop link)
        · rw [fresh] at link; contradiction
  · have kept : ∀ a b, next a = some b → (if a = last then some new else next a) = some b := by
      intro a b link
      rw [if_neg (by rintro rfl; rw [atEnd] at link; contradiction)]
      exact link
    rintro (known | rfl)
    · exact known.mono kept
    · exact (linked.mono kept).hop (if_pos rfl)

end Linked

/-- No node is linked to an empty list. -/
theorem not_linked_none {next : α → Option α} {node : α} : ¬ Linked next none node :=
  fun linked => linked.ne_none rfl

/-- Following `next` from the start comes to these nodes one after the other, and then to the end. -/
def Follows (next : α → Option α) : Option α → List α → Prop
  | start, [] => start = none
  | start, node :: rest => start = some node ∧ Follows next (next node) rest

namespace Follows

variable {next later : α → Option α} {start : Option α} {node last new : α} {nodes others : List α}

/-- A start leads to one list of nodes at most. -/
theorem unique (follows : Follows next start nodes) (again : Follows next start others) :
    nodes = others := by
  induction nodes generalizing start others with
  | nil =>
    cases others with
    | nil => rfl
    | cons node rest =>
      obtain ⟨same, -⟩ := again
      rw [show start = none from follows] at same
      contradiction
  | cons node rest ih =>
    obtain ⟨first, tail⟩ := follows
    cases others with
    | nil =>
      rw [show start = none from again] at first
      contradiction
    | cons other more =>
      obtain ⟨second, tail'⟩ := again
      cases Option.some.inj (first.symm.trans second)
      rw [ih tail tail']

/-- Only the links of the nodes on the way matter. -/
theorem congr (follows : Follows next start nodes) (same : ∀ node ∈ nodes, later node = next node) :
    Follows later start nodes := by
  induction nodes generalizing start with
  | nil => exact follows
  | cons node rest ih =>
    refine ⟨follows.1, ?_⟩
    rw [same node List.mem_cons_self]
    exact ih follows.2 fun other member => same other (List.mem_cons_of_mem _ member)

theorem head_eq (follows : Follows next start nodes) : start = nodes.head? := by
  cases nodes with
  | nil => exact follows
  | cons node rest => exact follows.1

/-- A link of the last node to a new one makes the chain longer by that one. -/
theorem snoc (follows : Follows next start (nodes ++ [last])) (atEnd : next new = none)
    (link : later last = some new) (kept : ∀ node, node ≠ last → later node = next node)
    (distinct : (nodes ++ [last, new]).Nodup) : Follows later start (nodes ++ [last, new]) := by
  induction nodes generalizing start with
  | nil =>
    have apart : new ≠ last := by
      rintro rfl
      simp at distinct
    exact ⟨follows.1, link, (kept new apart).trans atEnd⟩
  | cons node rest ih =>
    obtain ⟨absent, remaining⟩ := List.nodup_cons.mp distinct
    have apart : node ≠ last := by
      rintro rfl
      simp at absent
    refine ⟨follows.1, ?_⟩
    rw [kept node apart]
    exact ih follows.2 remaining

/-- If every link leads on in an order without repetitions, following the links comes to an end. -/
theorem exists_of_order {order : List α} (nodup : order.Nodup)
    (onward : ∀ a ∈ order, ∀ b, next a = some b → [a, b].Sublist order)
    (known : ∀ first, start = some first → first ∈ order) :
    ∃ nodes, Follows next start nodes ∧ nodes.Sublist order := by
  induction order generalizing start with
  | nil =>
    cases start with
    | none => exact ⟨[], rfl, .slnil⟩
    | some first => exact absurd (known first rfl) List.not_mem_nil
  | cons earliest rest ih =>
    obtain ⟨absent, distinct⟩ := List.nodup_cons.mp nodup
    have within : ∀ a ∈ rest, ∀ b, next a = some b → [a, b].Sublist rest := by
      intro a member b link
      rcases List.sublist_cons_iff.mp (onward a (List.mem_cons_of_mem _ member) b link) with
        pair | ⟨_, same, -⟩
      · exact pair
      · cases same
        exact absurd member absent
    cases start with
    | none => exact ⟨[], rfl, List.nil_sublist _⟩
    | some first =>
      rcases List.mem_cons.mp (known first rfl) with rfl | later
      · have second : ∀ b, next first = some b → b ∈ rest := by
          intro b link
          have pair := onward first List.mem_cons_self b link
          exact List.singleton_sublist.mp (List.cons_sublist_cons.mp pair)
        obtain ⟨nodes, follows, ordered⟩ := ih distinct within second
        exact ⟨first :: nodes, ⟨rfl, follows⟩, ordered.cons_cons first⟩
      · have inside : ∀ other, some first = some other → other ∈ rest := by
          rintro other ⟨⟩
          exact later
        obtain ⟨nodes, follows, ordered⟩ := ih distinct within inside
        exact ⟨nodes, follows, ordered.cons earliest⟩

end Follows

end RabbitJobQueue.Machine
