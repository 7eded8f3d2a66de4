import Mathlib.Algebra.BigOperators.Group.List.Basic
import Mathlib.Algebra.GroupWithZero.Nat
import Mathlib.Data.List.Nodup
import Mathlib.Logic.Relation

/-!
# Depth-first closure with a worklist

`closure` pops a vertex, skips it when it was visited before, and otherwise
visits it and pushes its successors. Each visited vertex is expanded once, so
the number of pops is bounded by one plus the number of edges, and with that much
fuel the visited list is exactly the set of vertices reachable from the root.
The graph may be cyclic.
-/

namespace Worklist

universe u

variable {α : Type u} [DecidableEq α]

/-- Visit the stack, whose top is the head of the list. -/
def closure (successors : α → List α) : ℕ → List α → List α → List α
  | 0, _, visited => visited
  | _ + 1, [], visited => visited
  | fuel + 1, current :: stack, visited =>
      if current ∈ visited then closure successors fuel stack visited
      else closure successors fuel ((successors current).reverse ++ stack) (visited ++ [current])

/-- One turn of the loop on the stack and the visited list. -/
def turn (successors : α → List α) : List α × List α → List α × List α
  | ([], visited) => ([], visited)
  | (current :: stack, visited) =>
      if current ∈ visited then (stack, visited)
      else ((successors current).reverse ++ stack, visited ++ [current])

/-- Following one edge of the graph. -/
def Edge (successors : α → List α) (source target : α) : Prop :=
  target ∈ successors source

/-- Following any number of edges. -/
def Reaches (successors : α → List α) : α → α → Prop :=
  Relation.ReflTransGen (Edge successors)

/-- The edges leaving the vertices that are still to be expanded. -/
def pendingEdges (successors : α → List α) (support visited : List α) : ℕ :=
  (support.map fun vertex => if vertex ∈ visited then 0 else (successors vertex).length).sum

/-- Enough fuel to empty the stack when only `support` has outgoing edges. -/
def bound (successors : α → List α) (support : List α) : ℕ :=
  1 + (support.map fun vertex => (successors vertex).length).sum

theorem pendingEdges_nil (successors : α → List α) (support : List α) :
    pendingEdges successors support [] = (support.map fun v => (successors v).length).sum := by
  simp [pendingEdges]

/-- Visiting a vertex removes its edges from the pending ones. -/
theorem pendingEdges_visit {successors : α → List α} {support visited : List α} {current : α}
    (supported : ∀ vertex, vertex ∉ support → successors vertex = [])
    (fresh : current ∉ visited) :
    (successors current).length + pendingEdges successors support (visited ++ [current]) ≤
      pendingEdges successors support visited := by
  have split_support (vertices : List α) :
      (if current ∈ vertices then (successors current).length else 0) +
          pendingEdges successors vertices (visited ++ [current]) ≤
        pendingEdges successors vertices visited := by
    induction vertices with
    | nil => simp [pendingEdges]
    | cons vertex rest ih =>
        simp only [pendingEdges, List.map_cons, List.sum_cons, List.mem_append, List.mem_cons,
          List.not_mem_nil, or_false] at ih ⊢
        by_cases same : vertex = current
        · subst same
          simp only [true_or, or_true, if_true, fresh, if_false]
          omega
        · simp only [same, Ne.symm same, or_false, false_or]
          omega
  by_cases inSupport : current ∈ support
  · simpa [inSupport] using split_support support
  · simpa [inSupport, supported current inSupport] using split_support support

theorem turn_fixed (successors : α → List α) (visited : List α) (turns : ℕ) :
    (turn successors)^[turns] ([], visited) = ([], visited) :=
  Function.iterate_fixed rfl turns

/-- The closure is the visited list after as many turns as there is fuel. -/
theorem closure_eq_iterate_turn (successors : α → List α) (fuel : ℕ) (stack visited : List α) :
    closure successors fuel stack visited =
      ((turn successors)^[fuel] (stack, visited)).2 := by
  induction fuel generalizing stack visited with
  | zero => rfl
  | succ fuel ih =>
      cases stack with
      | nil => rw [turn_fixed, closure]
      | cons current stack =>
          rw [closure, Function.iterate_succ_apply, turn]
          split
          · exact ih stack visited
          · exact ih _ _

section Correctness

variable {successors : α → List α} {support : List α}
  (supported : ∀ vertex, vertex ∉ support → successors vertex = [])

include supported in
/-- A closed frontier: every edge out of a visited vertex ends in a visited or a stacked one. -/
theorem closure_closed (fuel : ℕ) (stack visited : List α)
    (enough : stack.length + pendingEdges successors support visited ≤ fuel)
    (frontier : ∀ vertex ∈ visited, ∀ next ∈ successors vertex, next ∈ visited ∨ next ∈ stack) :
    (∀ vertex ∈ visited ++ stack, vertex ∈ closure successors fuel stack visited) ∧
      ∀ vertex ∈ closure successors fuel stack visited, ∀ next ∈ successors vertex,
        next ∈ closure successors fuel stack visited := by
  induction fuel generalizing stack visited with
  | zero =>
      have emptyStack : stack = [] := List.length_eq_zero_iff.mp (by omega)
      subst emptyStack
      simpa [closure] using frontier
  | succ fuel ih =>
      cases stack with
      | nil => simpa [closure] using frontier
      | cons current stack =>
          simp only [List.length_cons] at enough
          by_cases seen : current ∈ visited
          · have step := ih stack visited (by omega) (by
              intro vertex vertexMem next nextMem
              rcases frontier vertex vertexMem next nextMem with old | stacked
              · exact Or.inl old
              · rcases List.mem_cons.mp stacked with rfl | later
                · exact Or.inl seen
                · exact Or.inr later)
            simp only [closure, seen, if_true]
            refine ⟨?_, step.2⟩
            intro vertex vertexMem
            apply step.1
            simp only [List.mem_append, List.mem_cons] at vertexMem ⊢
            rcases vertexMem with old | rfl | later
            · exact Or.inl old
            · exact Or.inl seen
            · exact Or.inr later
          · have shrink := pendingEdges_visit supported seen
            have step := ih ((successors current).reverse ++ stack) (visited ++ [current])
              (by simp only [List.length_append, List.length_reverse]; omega)
              (by
                intro vertex vertexMem next nextMem
                simp only [List.mem_append, List.mem_singleton, List.mem_reverse] at vertexMem ⊢
                rcases vertexMem with old | rfl
                · rcases frontier vertex old next nextMem with seenNext | stacked
                  · exact Or.inl (Or.inl seenNext)
                  · rcases List.mem_cons.mp stacked with rfl | later
                    · exact Or.inl (Or.inr rfl)
                    · exact Or.inr (Or.inr later)
                · exact Or.inr (Or.inl nextMem))
            simp only [closure, seen, if_false]
            refine ⟨?_, step.2⟩
            intro vertex vertexMem
            apply step.1
            simp only [List.mem_append, List.mem_cons, List.mem_reverse, List.not_mem_nil,
              or_false] at vertexMem ⊢
            tauto

include supported in
/-- The measure bounds the turns until the stack is empty. -/
theorem stack_iterate_turn (fuel : ℕ) (stack visited : List α)
    (enough : stack.length + pendingEdges successors support visited ≤ fuel) :
    ((turn successors)^[fuel] (stack, visited)).1 = [] := by
  induction fuel generalizing stack visited with
  | zero =>
      have emptyStack : stack = [] := List.length_eq_zero_iff.mp (by omega)
      subst emptyStack
      rfl
  | succ fuel ih =>
      cases stack with
      | nil => rw [turn_fixed]
      | cons current stack =>
          simp only [List.length_cons] at enough
          rw [Function.iterate_succ_apply, turn]
          split
          · apply ih
            omega
          case isFalse fresh =>
            have shrink := pendingEdges_visit supported fresh
            apply ih
            simp only [List.length_append, List.length_reverse]
            omega

include supported in
/-- The loop from one root stops, with its closure as the visited list. -/
theorem iterate_turn_bound (root : α) :
    (turn successors)^[bound successors support] ([root], []) =
      ([], closure successors (bound successors support) [root] []) := by
  apply Prod.ext
  · apply stack_iterate_turn supported
    simp [pendingEdges_nil, bound]
  · exact (closure_eq_iterate_turn successors _ [root] []).symm

omit [DecidableEq α] in
theorem Reaches.tail {root vertex next : α} (reached : Reaches successors root vertex)
    (edge : next ∈ successors vertex) : Reaches successors root next :=
  Relation.ReflTransGen.tail reached edge

omit [DecidableEq α] in
/-- The order of the successors does not matter. -/
theorem reaches_congr {others : α → List α}
    (same : ∀ source target, target ∈ successors source ↔ target ∈ others source) :
    Reaches successors = Reaches others := by
  have sameEdges : Edge successors = Edge others := by
    funext source target
    exact propext (same source target)
  rw [Reaches, Reaches, sameEdges]

/-- Only reachable vertices are visited. -/
theorem reaches_of_mem_closure {root : α} (fuel : ℕ) (stack visited : List α)
    (visitedReached : ∀ vertex ∈ visited, Reaches successors root vertex)
    (stackReached : ∀ vertex ∈ stack, Reaches successors root vertex) :
    ∀ vertex ∈ closure successors fuel stack visited, Reaches successors root vertex := by
  induction fuel generalizing stack visited with
  | zero => simpa [closure] using visitedReached
  | succ fuel ih =>
      cases stack with
      | nil => simpa [closure] using visitedReached
      | cons current stack =>
          have currentReached := stackReached current List.mem_cons_self
          have restReached : ∀ vertex ∈ stack, Reaches successors root vertex :=
            fun vertex vertexMem => stackReached vertex (List.mem_cons_of_mem _ vertexMem)
          by_cases seen : current ∈ visited
          · simpa [closure, seen] using ih stack visited visitedReached restReached
          · simp only [closure, seen, if_false]
            apply ih
            · intro vertex vertexMem
              rcases List.mem_append.mp vertexMem with old | new
              · exact visitedReached vertex old
              · exact List.mem_singleton.mp new ▸ currentReached
            · intro vertex vertexMem
              rcases List.mem_append.mp vertexMem with next | old
              · exact currentReached.tail (List.mem_reverse.mp next)
              · exact restReached vertex old

theorem closure_nodup (fuel : ℕ) (stack visited : List α) (distinct : visited.Nodup) :
    (closure successors fuel stack visited).Nodup := by
  induction fuel generalizing stack visited with
  | zero => simpa [closure] using distinct
  | succ fuel ih =>
      cases stack with
      | nil => simpa [closure] using distinct
      | cons current stack =>
          by_cases seen : current ∈ visited
          · simpa [closure, seen] using ih stack visited distinct
          · simp only [closure, seen, if_false]
            exact ih _ _ (List.nodup_append.mpr ⟨distinct, List.nodup_singleton _, by
              rintro vertex vertexMem _ newMem rfl
              exact seen (List.mem_singleton.mp newMem ▸ vertexMem)⟩)

include supported in
/-- With the bounded fuel the closure of one root is exactly what the root reaches. -/
theorem mem_closure_iff (root vertex : α) :
    vertex ∈ closure successors (bound successors support) [root] [] ↔
      Reaches successors root vertex := by
  constructor
  · apply reaches_of_mem_closure
    · simp
    · intro stacked stackedMem
      rw [List.mem_singleton.mp stackedMem]
      exact Relation.ReflTransGen.refl
  · intro reached
    have closed := closure_closed supported (bound successors support) [root] []
      (by rw [pendingEdges_nil]; simp [bound]) (by simp)
    induction reached with
    | refl => exact closed.1 root (by simp)
    | tail _ edge ih => exact closed.2 _ ih _ edge

end Correctness

end Worklist
