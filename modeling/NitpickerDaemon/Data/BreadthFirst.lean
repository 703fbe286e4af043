import Mathlib

/-!
A walk over the nodes of trees, breadth first: it meets every node once, and a node before its
children.
-/

set_option autoImplicit false

namespace BreadthFirst

variable {α : Type} (children : α → List α) (size : α → Nat)

/-- The first nodes of the walk from a queue. -/
def nodes_from : Nat → List α → List α
  | 0, _ => []
  | _ + 1, [] => []
  | fuel + 1, node :: queue => node :: nodes_from fuel (queue ++ children node)

def total (queue : List α) : Nat := (queue.map size).sum

/-- The walk: the first node of the queue, whose children go to the end of it, and so on. -/
def walk (queue : List α) : List α := nodes_from children (total size queue) queue

/-- The size of a tree counts its root and the sizes of the children. -/
def Sized : Prop := ∀ node, size node = 1 + total size (children node)

variable {children size} {queue : List α} {node child : α}

theorem total_append (queue queue' : List α) :
    total size (queue ++ queue') = total size queue + total size queue' := by
  simp [total]

theorem total_cons (hsize : Sized children size) (node : α) (queue : List α) :
    total size (node :: queue) = total size (queue ++ children node) + 1 := by
  have hnode := hsize node
  rw [total_append, total, List.map_cons, List.sum_cons, hnode]
  rw [total, total]
  omega

@[simp] theorem walk_nil : walk children size [] = [] := rfl

theorem walk_cons (hsize : Sized children size) (node : α) (queue : List α) :
    walk children size (node :: queue) =
      node :: walk children size (queue ++ children node) := by
  rw [walk, total_cons hsize, nodes_from]
  rfl

/-- A property of queues that a step of the walk carries back holds of all of them. -/
theorem walk_induction (hsize : Sized children size) {P : List α → Prop} (hnil : P [])
    (hcons : ∀ node queue, P (queue ++ children node) → P (node :: queue)) (queue : List α) :
    P queue := by
  induction htotal : total size queue generalizing queue with
  | zero =>
    cases queue with
    | nil => exact hnil
    | cons node queue =>
      rw [total_cons hsize] at htotal
      cases htotal
  | succ n ih =>
    cases queue with
    | nil => exact hnil
    | cons node queue =>
      rw [total_cons hsize] at htotal
      exact hcons node queue (ih _ (Nat.succ.inj htotal))

/-- The walk meets the nodes that stand below the queue, each as often as there. -/
theorem walk_perm (hsize : Sized children size) {nodes : α → List α}
    (hnodes : ∀ node, nodes node = node :: (children node).flatMap nodes) (queue : List α) :
    (walk children size queue).Perm (queue.flatMap nodes) := by
  induction queue using walk_induction hsize with
  | hnil => exact List.Perm.nil
  | hcons node queue ih =>
    rw [walk_cons hsize, List.flatMap_cons, hnodes, List.cons_append]
    refine (ih.trans ?_).cons node
    rw [List.flatMap_append]
    exact List.perm_append_comm

theorem mem_walk (hsize : Sized children size) (h : node ∈ queue) :
    node ∈ walk children size queue := by
  induction queue using walk_induction hsize with
  | hnil => cases h
  | hcons first queue ih =>
    rw [walk_cons hsize]
    rcases List.mem_cons.mp h with rfl | h
    · exact List.mem_cons_self
    · exact List.mem_cons_of_mem _ (ih (List.mem_append_left _ h))

/-- A node comes before its children. -/
theorem parent_first (hsize : Sized children size) (h : node ∈ walk children size queue)
    (hchild : child ∈ children node) : [node, child].Sublist (walk children size queue) := by
  induction queue using walk_induction hsize with
  | hnil => cases h
  | hcons first queue ih =>
    rw [walk_cons hsize] at h ⊢
    rcases List.mem_cons.mp h with rfl | h
    · have hlater := mem_walk hsize (List.mem_append_right queue hchild)
      exact (List.singleton_sublist.mpr hlater).cons_cons node
    · exact (ih h).cons first

/-- What comes before `child` comes before its last place. -/
theorem mem_of_pair_sublist {seen rest : List α}
    (h : [node, child].Sublist (seen ++ child :: rest)) (hrest : child ∉ rest) : node ∈ seen := by
  induction seen with
  | nil =>
    rw [List.nil_append] at h
    cases h with
    | cons _ h => exact absurd (h.subset (by simp)) hrest
    | cons_cons _ h => exact absurd (List.singleton_sublist.mp h) hrest
  | cons first seen ih =>
    rw [List.cons_append] at h
    cases h with
    | cons _ h => exact List.mem_cons_of_mem _ (ih h)
    | cons_cons _ h => exact List.mem_cons_self

/-- Every node of the walk is one of the queue or a child of one node of the walk. -/
theorem walk_perm_children (hsize : Sized children size) (queue : List α) :
    (walk children size queue).Perm
      (queue ++ (walk children size queue).flatMap children) := by
  induction queue using walk_induction hsize with
  | hnil => exact List.Perm.nil
  | hcons node queue ih =>
    rw [walk_cons hsize, List.flatMap_cons, List.cons_append, ← List.append_assoc]
    exact ih.cons node

end BreadthFirst
