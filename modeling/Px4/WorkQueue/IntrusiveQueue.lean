import Mathlib.Data.List.Nodup
import Px4.Common.Run

/-!
# The intrusive queue

`src/include/containers/IntrusiveQueue.hpp`: a queue of nodes that hold the pointer to the next node
themselves. Whether a node is already queued is told by its pointer and by the tail alone. The loops
are bounded by the number of queued nodes.

`Links` is what the memory holds. An `IntrusiveQueue` comes with the list of its nodes and the proof
that the links are those of the list.
-/

namespace Px4.WorkQueue

open Function List

/-- The head and the tail of a queue, and `_next_intrusive_queue_node` of every node. -/
structure Links (α : Type) where
  head : Option α := none
  tail : Option α := none
  next : α → Option α := fun _ => none

namespace Links

variable {α : Type} [DecidableEq α] (q : Links α)

def push (newNode : α) : Links α :=
  if (q.next newNode).isSome || some newNode = q.tail then q
  else
    { head := q.head.or (some newNode)
      tail := some newNode
      next := q.tail.elim q.next fun tail => update q.next tail (some newNode) }

/-- The front node that `pop` returns is the head; this is the queue without it. -/
def pop : Links α :=
  q.head.elim q fun ret =>
    { head := if q.head ≠ q.tail then q.next ret else none
      tail := if q.head ≠ q.tail then q.tail else none
      next := update q.next ret none }

/-- The loop of `remove`, which looks for the node before the one to be removed. -/
def removeAfter (removeNode : α) : ℕ → Option α → Links α
  | 0, _ => q
  | _ + 1, none => q
  | fuel + 1, some node =>
    if q.next node = some removeNode then
      { q with
        tail := if some removeNode = q.tail then some node else q.tail
        next := update (update q.next node (q.next removeNode)) removeNode none }
    else removeAfter removeNode fuel (q.next node)

def remove (size : ℕ) (removeNode : α) : Links α :=
  if some removeNode = q.head then
    (q.next removeNode).elim { q with head := none, tail := none } fun next =>
      { q with head := some next, next := update q.next removeNode none }
  else q.removeAfter removeNode size q.head

/-- The nodes that the loops of `remove` and of `size`, which counts them, come to. -/
def chain : ℕ → Option α → List α
  | 0, _ => []
  | _ + 1, none => []
  | fuel + 1, some node => node :: chain fuel (q.next node)

/-- What `remove` returns. -/
def removes (size : ℕ) (removeNode : α) : Bool :=
  some removeNode = q.head || (q.chain size q.head).any fun node => q.next node = some removeNode

/-- The links are those of a queue with these nodes. -/
structure Linked (q : Links α) (nodes : List α) : Prop where
  nodup : nodes.Nodup
  head : q.head = nodes.head?
  tail : q.tail = nodes.getLast?
  next : ∀ pre x post, nodes = pre ++ x :: post → q.next x = post.head?
  outside : ∀ x ∉ nodes, q.next x = none

variable {q}

variable {nodes pre post : List α} {x node : α} {fuel size : ℕ}

omit [DecidableEq α] in
/-- A node has a next one or is the tail if and only if it is queued. -/
theorem Linked.queued_iff (h : q.Linked nodes) (x) :
    (q.next x).isSome ∨ some x = q.tail ↔ x ∈ nodes := by
  constructor
  · rintro (hnext | htail)
    · by_contra hx
      rw [h.outside x hx] at hnext
      cases hnext
    · rw [h.tail] at htail
      exact mem_of_getLast? htail.symm
  · intro hx
    obtain ⟨pre, post, hnodes⟩ := append_of_mem hx
    cases post with
    | nil =>
      right
      rw [h.tail, hnodes, getLast?_append_cons]
      rfl
    | cons y post =>
      left
      rw [h.next pre x (y :: post) hnodes]
      rfl

theorem Linked.append (h : q.Linked nodes) (hx : x ∉ nodes) :
    Linked
      { head := q.head.or (some x)
        tail := some x
        next := q.tail.elim q.next fun tail => update q.next tail (some x) }
      (nodes ++ [x]) := by
  have houtside : ∀ y ∉ nodes,
      q.tail.elim q.next (fun tail => update q.next tail (some x)) y = none := by
    intro y hy
    rcases htail : q.tail with _ | tail
    · exact h.outside y hy
    · have hmem : tail ∈ nodes := mem_of_getLast? (h.tail ▸ htail)
      rw [Option.elim_some, update_of_ne fun heq : y = tail => hy (heq ▸ hmem)]
      exact h.outside y hy
  refine ⟨?_, ?_, ?_, fun pre y post hnodes => ?_, fun y hy => ?_⟩
  · exact nodup_append.mpr ⟨h.nodup, nodup_singleton x, fun y hy z hz heq =>
      hx (mem_singleton.mp hz ▸ heq ▸ hy)⟩
  · rw [h.head, head?_append]
    rfl
  · rw [getLast?_append]
    rfl
  · obtain rfl | ⟨post, z, rfl⟩ := eq_nil_or_concat post
    · obtain ⟨rfl, rfl⟩ := append_singleton_inj.mp hnodes
      exact houtside x hx
    · -- the node was queued before; it is the tail if nothing was behind it
      rw [concat_eq_append] at hnodes ⊢
      obtain ⟨rfl, rfl⟩ := append_singleton_inj.mp
        (hnodes.trans (append_assoc pre (y :: post) [z]).symm)
      cases post with
      | nil =>
        have htail : q.tail = some y := by rw [h.tail, getLast?_append]; rfl
        rw [htail]
        exact update_self ..
      | cons w post =>
        have hy : y ∉ w :: post := (nodup_cons.mp (nodup_append.mp h.nodup).2.1).1
        obtain ⟨tail, htail⟩ : ∃ tail, (w :: post).getLast? = some tail :=
          ⟨_, getLast?_eq_getLast_of_ne_nil (cons_ne_nil w post)⟩
        have hlast : q.tail = some tail := by
          rw [h.tail, ← htail, getLast?_append]
          rfl
        have hne : y ≠ tail := fun heq => hy (heq ▸ mem_of_getLast? htail)
        rw [hlast]
        show update q.next tail (some x) y = some w
        rw [update_of_ne hne]
        exact h.next pre y (w :: post) rfl
  · exact houtside y fun hmem => hy (mem_append_left _ hmem)

theorem Linked.push (h : q.Linked nodes) (x) :
    (q.push x).Linked (if x ∈ nodes then nodes else nodes ++ [x]) := by
  have hqueued := h.queued_iff x
  by_cases hx : x ∈ nodes
  · have hcond : ((q.next x).isSome || decide (some x = q.tail)) := by
      simpa using hqueued.mpr hx
    rwa [Links.push, if_pos hcond, if_pos hx]
  · have hcond : ¬ ((q.next x).isSome || decide (some x = q.tail)) := by
      simpa using mt hqueued.mp hx
    rw [Links.push, if_neg hcond, if_neg hx]
    exact h.append hx

omit [DecidableEq α] in
theorem linked_nil : Linked ({} : Links α) [] :=
  ⟨nodup_nil, rfl, rfl, fun pre x post h => by simp at h, fun _ _ => rfl⟩

theorem Linked.pop (h : q.Linked (x :: nodes)) : q.pop.Linked nodes := by
  obtain ⟨hx, hnodup⟩ := nodup_cons.mp h.nodup
  have hnext := h.next [] x nodes rfl
  rw [Links.pop, h.head, h.tail]
  have hsame : ¬ some x ≠ (x :: nodes).getLast? ↔ nodes = [] := by
    cases nodes with
    | nil => simp
    | cons y rest =>
      simp only [getLast?_cons_cons, reduceCtorEq, iff_false, not_not]
      exact fun hlast => hx (mem_of_getLast? hlast.symm)
  refine ⟨hnodup, ?_, ?_, fun pre y post hnodes => ?_, fun y hy => ?_⟩
  · split
    · exact hnext
    · next hcond => rw [hsame.mp hcond]; rfl
  · split
    · next hcond =>
      obtain ⟨y, rest, rfl⟩ := exists_cons_of_ne_nil (mt hsame.mpr (not_not.mpr hcond))
      rfl
    · next hcond => rw [hsame.mp hcond]; rfl
  · have hyx : y ≠ x := fun heq => hx (hnodes ▸ heq ▸ by simp)
    show update q.next x none y = post.head?
    rw [update_of_ne hyx]
    exact h.next (x :: pre) y post (by rw [hnodes, cons_append])
  · show update q.next x none y = none
    by_cases hyx : y = x
    · rw [hyx, update_self]
    · rw [update_of_ne hyx]
      exact h.outside y (by simp [hyx, hy])

theorem Linked.pop_tail (h : q.Linked nodes) : q.pop.Linked nodes.tail := by
  cases nodes with
  | nil =>
    rw [Links.pop, h.head]
    exact h
  | cons x nodes => exact h.pop

omit [DecidableEq α] in
/-- Two nodes of a list are the same, or the one is behind the other. -/
theorem append_cons_cases {pre' post' y} (h : pre ++ x :: post = pre' ++ y :: post') :
    (pre' = pre ∧ y = x ∧ post' = post) ∨
      (∃ between, pre' = pre ++ x :: between ∧ post = between ++ y :: post') ∨
      ∃ between, pre = pre' ++ y :: between ∧ post' = between ++ x :: post := by
  rcases append_eq_append_iff.mp h with ⟨as, hpre, heq⟩ | ⟨bs, hpre, heq⟩
  · cases as with
    | nil =>
      obtain ⟨rfl, rfl⟩ := cons.inj heq
      exact .inl ⟨by rw [hpre, append_nil], rfl, rfl⟩
    | cons z as =>
      obtain ⟨rfl, rfl⟩ := cons.inj heq
      exact .inr (.inl ⟨as, hpre, rfl⟩)
  · cases bs with
    | nil =>
      obtain ⟨rfl, rfl⟩ := cons.inj heq
      exact .inl ⟨by rw [hpre, append_nil], rfl, rfl⟩
    | cons z bs =>
      obtain ⟨rfl, rfl⟩ := cons.inj heq
      exact .inr (.inr ⟨bs, hpre, rfl⟩)

/-- Links past a node in the middle or at the end. -/
theorem Linked.bypass (h : q.Linked (pre ++ node :: x :: post)) :
    Linked
      { q with
        tail := if some x = q.tail then some node else q.tail
        next := update (update q.next node (q.next x)) x none }
      (pre ++ node :: post) := by
  have hsplit : pre ++ node :: x :: post = (pre ++ [node]) ++ x :: post := by simp
  have hx : x ∉ pre ++ node :: post := by
    have := (nodup_middle.mp (hsplit ▸ h.nodup))
    simpa using (nodup_cons.mp this).1
  have hsub : (node :: post).Sublist (node :: x :: post) :=
    (sublist_cons_self x post).cons_cons node
  have hnodup : (pre ++ node :: post).Nodup := h.nodup.sublist (hsub.append_left pre)
  obtain ⟨hnode, -⟩ := nodup_cons.mp (nodup_middle.mp hnodup)
  -- what the links of the nodes other than `x` become
  have hother : ∀ y ≠ x, y ≠ node →
      update (update q.next node (q.next x)) x none y = q.next y := by
    intro y hyx hyn
    rw [update_of_ne hyx, update_of_ne hyn]
  have hself : update (update q.next node (q.next x)) x none node = post.head? := by
    rw [update_of_ne fun heq : node = x => hx (heq ▸ by simp), update_self]
    exact h.next _ x post hsplit
  refine ⟨hnodup, ?_, ?_, fun pre' y post' hnodes => ?_, fun y hy => ?_⟩
  · rw [h.head, head?_append, head?_append]
    rfl
  · rw [h.tail]
    cases post with
    | nil => simp
    | cons w post =>
      have hlast :
          (pre ++ node :: x :: w :: post).getLast? = (pre ++ node :: w :: post).getLast? := by
        simp
      rw [hlast, if_neg fun heq => hx (mem_of_getLast? heq.symm)]
  · have hyx : y ≠ x := fun heq => hx (hnodes ▸ heq ▸ by simp)
    rcases append_cons_cases hnodes with ⟨-, rfl, rfl⟩ | ⟨between, rfl, rfl⟩ | ⟨between, rfl, rfl⟩
    · exact hself
    · exact (hother y hyx fun hyn => hnode (hyn ▸ by simp)).trans
        (h.next (pre ++ node :: x :: between) y post' (by simp))
    · refine (hother y hyx fun hyn => hnode (hyn ▸ by simp)).trans ?_
      rw [h.next pre' y (between ++ node :: x :: post) (by simp), head?_append, head?_append]
      rfl
  · by_cases hyx : y = x
    · rw [hyx]
      exact update_self ..
    · refine (hother y hyx fun hyn => hy (hyn ▸ by simp)).trans (h.outside y ?_)
      simp only [mem_append, mem_cons] at hy ⊢
      tauto

/-- The loop of `remove` from a node on, before which the one to be removed is not. -/
theorem Linked.removeAfter (h : q.Linked nodes) (hnodes : nodes = pre ++ post)
    (hpre : x ∉ pre) (hhead : post.head? ≠ some x) (hfuel : post.length ≤ fuel) :
    (q.removeAfter x fuel post.head?).Linked (nodes.erase x) := by
  induction post generalizing pre fuel with
  | nil =>
    rw [append_nil] at hnodes
    rw [erase_of_not_mem (hnodes ▸ hpre)]
    cases fuel <;> exact h
  | cons node post ih =>
    obtain ⟨fuel, rfl⟩ : ∃ n, fuel = n + 1 := Nat.exists_eq_add_one.mpr
      (Nat.lt_of_lt_of_le (Nat.zero_lt_succ _) hfuel)
    have hne : x ≠ node := fun heq => hhead (heq ▸ rfl)
    have hpre' : x ∉ pre ++ [node] := by simp [hpre, hne]
    rw [head?_cons, Links.removeAfter, h.next pre node post hnodes]
    by_cases hnext : post.head? = some x
    · obtain ⟨rest, rfl⟩ := head?_eq_some_iff.mp hnext
      have herase : nodes.erase x = pre ++ node :: rest := by
        rw [hnodes, erase_append_right _ hpre, erase_cons_tail (by simpa using hne.symm),
          erase_cons_head]
      rw [if_pos hnext, herase]
      exact (hnodes ▸ h).bypass
    · rw [if_neg hnext]
      exact ih (by simp [hnodes]) hpre' hnext (Nat.le_of_succ_le_succ hfuel)

theorem Linked.remove_head (h : q.Linked (x :: nodes)) : q.remove size x = q.pop := by
  have hnext := h.next [] x nodes rfl
  have hhead : some x = q.head := h.head.symm
  rw [Links.remove, if_pos hhead, Links.pop, h.head, head?_cons, Option.elim_some, hnext, h.tail]
  cases nodes with
  | nil =>
    have hsame : update q.next x none = q.next := by
      rw [← head?_nil, ← hnext, update_eq_self]
    simp [hsame]
  | cons y rest =>
    have hne : some x ≠ (x :: y :: rest).getLast? := fun hlast =>
      (nodup_cons.mp h.nodup).1 (mem_of_getLast? (by simpa using hlast.symm))
    rw [if_pos hne, if_pos hne]
    rfl

theorem Linked.remove (h : q.Linked nodes) (x) :
    (q.remove nodes.length x).Linked (nodes.erase x) := by
  by_cases hhead : some x = q.head
  · obtain ⟨rest, rfl⟩ := head?_eq_some_iff.mp (h.head.symm.trans hhead.symm)
    rw [h.remove_head, erase_cons_head]
    exact h.pop
  · rw [Links.remove, if_neg hhead, h.head]
    exact h.removeAfter (nil_append nodes).symm not_mem_nil
      (fun heq => hhead (heq.symm.trans h.head.symm)) (Nat.le_refl _)

omit [DecidableEq α] in
theorem Linked.chain (h : q.Linked nodes) (hnodes : nodes = pre ++ post)
    (hfuel : post.length ≤ fuel) : q.chain fuel post.head? = post := by
  induction post generalizing pre fuel with
  | nil => cases fuel <;> rfl
  | cons node post ih =>
    obtain ⟨fuel, rfl⟩ := Nat.exists_eq_add_one.mpr (Nat.lt_of_lt_of_le (Nat.succ_pos _) hfuel)
    have hrest : nodes = (pre ++ [node]) ++ post := by simp [hnodes]
    rw [head?_cons, Links.chain, h.next pre node post hnodes,
      ih hrest (Nat.le_of_succ_le_succ hfuel)]

theorem Linked.removes (h : q.Linked nodes) (x) :
    q.removes nodes.length x = decide (x ∈ nodes) := by
  rw [Links.removes, h.head, h.chain (nil_append nodes).symm (Nat.le_refl _), Bool.eq_iff_iff]
  simp only [Bool.or_eq_true, decide_eq_true_eq, any_eq_true]
  constructor
  · rintro (hhead | ⟨node, hnode, hnext⟩)
    · exact mem_of_head? hhead.symm
    · obtain ⟨pre, post, hnodes⟩ := append_of_mem hnode
      rw [h.next pre node post hnodes] at hnext
      exact hnodes ▸ mem_append_right _ (mem_cons_of_mem _ (mem_of_head? hnext))
  · intro hx
    obtain ⟨pre, post, hnodes⟩ := append_of_mem hx
    obtain rfl | ⟨pre, node, rfl⟩ := eq_nil_or_concat pre
    · exact .inl (by rw [hnodes]; rfl)
    · have hsplit : nodes = pre ++ node :: x :: post := by simp [hnodes]
      exact .inr ⟨node, by simp [hsplit], h.next pre node _ hsplit⟩

end Links

/-- A queue with its nodes in order. -/
structure IntrusiveQueue (α : Type) [DecidableEq α] where
  links : Links α := {}
  nodes : List α := []
  linked : links.Linked nodes := by exact Links.linked_nil

namespace IntrusiveQueue

variable {α : Type} [DecidableEq α] (q : IntrusiveQueue α)

def front : Option α := q.links.head

theorem front_eq : q.front = q.nodes.head? := q.linked.head

def push (newNode : α) : IntrusiveQueue α where
  links := q.links.push newNode
  nodes := if newNode ∈ q.nodes then q.nodes else q.nodes ++ [newNode]
  linked := q.linked.push newNode

/-- The queue without the front node, which `pop` returns. -/
def pop : IntrusiveQueue α where
  links := q.links.pop
  nodes := q.nodes.tail
  linked := q.linked.pop_tail

def remove (removeNode : α) : IntrusiveQueue α where
  links := q.links.remove q.nodes.length removeNode
  nodes := q.nodes.erase removeNode
  linked := q.linked.remove removeNode

variable {q}

variable {x y : α}

theorem mem_push : x ∈ (q.push x).nodes := by
  rw [push]
  split
  · assumption
  · simp

theorem mem_push_of_mem (h : x ∈ q.nodes) : x ∈ (q.push y).nodes := by
  rw [push]
  split
  · exact h
  · exact mem_append_left _ h

theorem not_mem_push (h : x ∉ q.nodes) (hne : x ≠ y) : x ∉ (q.push y).nodes := by
  rw [push]
  split
  · exact h
  · simp [h, hne]

theorem mem_pop (h : x ∈ q.nodes) (hfront : q.front ≠ some x) : x ∈ q.pop.nodes := by
  rw [front_eq] at hfront
  show x ∈ q.nodes.tail
  cases hnodes : q.nodes with
  | nil =>
    rw [hnodes] at h
    cases h
  | cons y rest =>
    rw [hnodes] at h hfront
    exact (mem_cons.mp h).resolve_left fun heq => hfront (heq ▸ rfl)

/-! ## Calls -/

inductive Call (α : Type) where
  | push (newNode : α)
  | pop
  | remove (removeNode : α)

inductive Returned (α : Type) where
  | nothing
  | node (ret : Option α)
  | removed (found : Bool)

def call (q : IntrusiveQueue α) : Call α → IntrusiveQueue α × Returned α
  | .push newNode => (q.push newNode, .nothing)
  | .pop => (q.pop, .node q.front)
  | .remove removeNode =>
    (q.remove removeNode, .removed (q.links.removes q.nodes.length removeNode))

/-- The calls of a list without duplicates. -/
def listCall (nodes : List α) : Call α → List α × Returned α
  | .push newNode => (if newNode ∈ nodes then nodes else nodes ++ [newNode], .nothing)
  | .pop => (nodes.tail, .node nodes.head?)
  | .remove removeNode => (nodes.erase removeNode, .removed (removeNode ∈ nodes))

theorem nodes_call (q : IntrusiveQueue α) (c) : (q.call c).1.nodes = (listCall q.nodes c).1 := by
  cases c <;> rfl

theorem returned_call (q : IntrusiveQueue α) (c) : (q.call c).2 = (listCall q.nodes c).2 := by
  cases c with
  | push newNode => rfl
  | pop => exact congrArg Returned.node q.front_eq
  | remove removeNode => exact congrArg Returned.removed (q.linked.removes removeNode)

/-- **The queue is a list without duplicates.** After any calls the chain from the head has the
nodes of the list, the last of which is the tail, all other nodes have no next one, and the next
call returns what it returns for the list. -/
theorem behaves_as_list (calls : List (Call α)) :
    let q := Run.after (fun q c => (call q c).1) {} calls
    let nodes := Run.after (fun nodes c => (listCall nodes c).1) [] calls
    nodes.Nodup ∧ (∀ fuel ≥ nodes.length, q.links.chain fuel q.links.head = nodes) ∧
      q.links.tail = nodes.getLast? ∧ (∀ x ∉ nodes, q.links.next x = none) ∧
      ∀ c, (q.call c).2 = (listCall nodes c).2 := by
  intro q nodes
  have hnodes : q.nodes = nodes :=
    Run.after_of_simulation (R := fun (q : IntrusiveQueue α) nodes => q.nodes = nodes)
      (C := fun _ => True) (fun q nodes c h _ => h ▸ q.nodes_call c) rfl fun _ _ => trivial
  rw [← hnodes]
  refine ⟨q.linked.nodup, fun fuel hfuel => ?_, q.linked.tail, q.linked.outside, q.returned_call⟩
  rw [q.linked.head]
  exact q.linked.chain (nil_append q.nodes).symm hfuel

end IntrusiveQueue

end Px4.WorkQueue
