import Mathlib.Algebra.Order.BigOperators.Group.List
import Mathlib.Algebra.Order.Ring.Nat
import Koschei.Lib.Checks

/-!
# Visiting what can be reached

A walk through a graph with a stack of nodes: a node that has been visited is passed,
another is visited, and the nodes it leads to are stacked. A walk that ends has visited
the nodes that can be reached from those it began with. Each node stacks what it leads
to once, which bounds the rounds.
-/

namespace Koschei.Lib.Worklist

open Koschei.Lib

variable {K ε : Type} [DecidableEq K]

/-- Nodes off the stack until it is empty; the last of the nodes that one leads to comes first. -/
def visit (next : K → Except ε (List K)) (exhausted : ε) : Nat → List K → List K → Except ε (List K)
  | _, visited, [] => .ok visited
  | 0, _, _ :: _ => .error exhausted
  | fuel + 1, visited, name :: stack =>
    if name ∈ visited then visit next exhausted fuel visited stack
    else do
      let successors ← next name
      visit next exhausted fuel (name :: visited) (successors.reverse ++ stack)

/-- A node leads to another. -/
def Leads (next : K → Except ε (List K)) (name other : K) : Prop :=
  ∃ successors, next name = .ok successors ∧ other ∈ successors

/-- A node can be reached from another. -/
abbrev Reaches (next : K → Except ε (List K)) : K → K → Prop := Relation.ReflTransGen (Leads next)

variable {next : K → Except ε (List K)} {exhausted : ε} {fuel : Nat} {visited stack result : List K}

/-- What holds when a walk ends, when what the visited nodes lead to was visited or stacked. -/
theorem visit_sound (ran : visit next exhausted fuel visited stack = .ok result)
    (closed : ∀ name ∈ visited, ∀ other, Leads next name other → other ∈ visited ∨ other ∈ stack) :
    (∀ name, name ∈ visited ∨ name ∈ stack → name ∈ result) ∧
      (∀ name ∈ result, ∀ other, Leads next name other → other ∈ result) ∧
      ∀ name ∈ result, name ∈ visited ∨ ∃ first ∈ stack, Reaches next first name := by
  induction fuel, visited, stack using visit.induct with
  | case1 fuel visited =>
    have same : visited = result := by
      cases fuel <;> exact ok.inj ran
    subst same
    refine ⟨fun name inside => inside.resolve_right not_mem_nil, fun name inside other leads => ?_,
      fun name inside => .inl inside⟩
    exact (closed name inside other leads).resolve_right not_mem_nil
  | case2 visited name stack => cases ran
  | case3 fuel visited name stack seen ih =>
    rw [visit, if_pos seen] at ran
    have closed' : ∀ one ∈ visited, ∀ other, Leads next one other → other ∈ visited ∨ other ∈ stack := by
      intro one inside other leads
      rcases closed one inside other leads with among | among
      · exact .inl among
      · rcases mem_cons.mp among with rfl | among
        · exact .inl seen
        · exact .inr among
    obtain ⟨holds, ends, reached⟩ := ih ran closed'
    refine ⟨fun one inside => ?_, ends, fun one inside => ?_⟩
    · rcases inside with inside | inside
      · exact holds one (.inl inside)
      · rcases mem_cons.mp inside with rfl | inside
        · exact holds _ (.inl seen)
        · exact holds one (.inr inside)
    · exact (reached one inside).imp_right fun ⟨first, among, way⟩ =>
        ⟨first, mem_cons_of_mem _ among, way⟩
  | case4 fuel visited name stack fresh ih =>
    rw [visit, if_neg fresh] at ran
    obtain ⟨successors, known, ran⟩ := bind_eq_ok ran
    have stacked : ∀ other, other ∈ successors → other ∈ successors.reverse ++ stack := fun other among =>
      mem_append_left _ (mem_reverse.mpr among)
    have closed' : ∀ one ∈ name :: visited, ∀ other, Leads next one other →
        other ∈ name :: visited ∨ other ∈ successors.reverse ++ stack := by
      intro one inside other leads
      rcases mem_cons.mp inside with rfl | inside
      · obtain ⟨theirs, isTheirs, among⟩ := leads
        cases known.symm.trans isTheirs
        exact .inr (stacked other among)
      · rcases closed one inside other leads with among | among
        · exact .inl (mem_cons_of_mem _ among)
        · rcases mem_cons.mp among with rfl | among
          · exact .inl mem_cons_self
          · exact .inr (mem_append_right _ among)
    obtain ⟨holds, ends, reached⟩ := ih successors ran closed'
    refine ⟨fun one inside => ?_, ends, fun one inside => ?_⟩
    · rcases inside with inside | inside
      · exact holds one (.inl (mem_cons_of_mem _ inside))
      · rcases mem_cons.mp inside with rfl | inside
        · exact holds _ (.inl mem_cons_self)
        · exact holds one (.inr (mem_append_right _ inside))
    · rcases reached one inside with among | ⟨first, among, way⟩
      · rcases mem_cons.mp among with rfl | among
        · exact .inr ⟨_, mem_cons_self, .refl⟩
        · exact .inl among
      · rcases mem_append.mp among with among | among
        · exact .inr ⟨name, mem_cons_self, .head ⟨successors, known, mem_reverse.mp among⟩ way⟩
        · exact .inr ⟨first, mem_cons_of_mem _ among, way⟩

/-- **A walk visits what can be reached.** -/
theorem mem_visit_iff {root name : K} (ran : visit next exhausted fuel [] [root] = .ok result) :
    name ∈ result ↔ Reaches next root name := by
  obtain ⟨holds, ends, reached⟩ := visit_sound ran fun one inside => by cases inside
  constructor
  · intro inside
    obtain ⟨first, among, way⟩ := (reached name inside).resolve_left not_mem_nil
    rwa [mem_singleton.mp among] at way
  · intro way
    induction way with
    | refl => exact holds root (.inr mem_cons_self)
    | tail _ leads inside => exact ends _ inside _ leads

/-! ## The rounds of a walk -/

/-- How many nodes a node leads to. -/
def degree (next : K → Except ε (List K)) (name : K) : Nat := match next name with
  | .ok successors => successors.length
  | .error _ => 0

/-- What the nodes that have not been visited can stack. -/
def remaining (next : K → Except ε (List K)) (names visited : List K) : Nat :=
  (names.map fun name => if name ∈ visited then 0 else degree next name).sum

theorem remaining_visited_le (names : List K) (name : K) :
    remaining next names (name :: visited) ≤ remaining next names visited := by
  refine List.sum_le_sum fun other _ => ?_
  by_cases seen : other ∈ visited
  · rw [if_pos (mem_cons_of_mem _ seen), if_pos seen]
  · rw [if_neg seen]
    split <;> omega

/-- A node that is visited stacks no more than what it could. -/
theorem remaining_visited {names : List K} {name : K} (member : name ∈ names) (fresh : name ∉ visited) :
    remaining next names (name :: visited) + degree next name ≤ remaining next names visited := by
  obtain ⟨before, after, rfl⟩ := append_of_mem member
  have earlier := @remaining_visited_le _ _ _ next visited before name
  have later := @remaining_visited_le _ _ _ next visited after name
  unfold remaining at earlier later ⊢
  rw [map_append, map_cons, sum_append, sum_cons, map_append, map_cons,
    sum_append, sum_cons, if_pos mem_cons_self, if_neg fresh]
  omega

/-- A walk through nodes that all have successors ends. -/
theorem exists_visit_eq_ok {names : List K}
    (known : ∀ name ∈ names, ∃ successors, next name = .ok successors ∧ successors ⊆ names)
    (stacked : stack ⊆ names) (enough : stack.length + remaining next names visited ≤ fuel) :
    ∃ result, visit next exhausted fuel visited stack = .ok result := by
  induction fuel, visited, stack using visit.induct with
  | case1 fuel visited =>
    refine ⟨visited, ?_⟩
    cases fuel <;> rfl
  | case2 visited name stack =>
    rw [length_cons] at enough
    omega
  | case3 fuel visited name stack seen ih =>
    rw [visit, if_pos seen]
    rw [length_cons] at enough
    exact ih (fun other among => stacked (mem_cons_of_mem _ among)) (by omega)
  | case4 fuel visited name stack fresh ih =>
    have member := stacked mem_cons_self
    obtain ⟨successors, isKnown, subset⟩ := known name member
    have less := @remaining_visited _ _ _ next visited names name member fresh
    have many : degree next name = successors.length := by
      unfold degree
      rw [isKnown]
    rw [length_cons] at enough
    rw [visit, if_neg fresh, bind_of_ok isKnown]
    refine ih successors (fun other among => ?_) ?_
    · rcases mem_append.mp among with among | among
      · exact subset (mem_reverse.mp among)
      · exact stacked (mem_cons_of_mem _ among)
    · rw [length_append, List.length_reverse]
      omega

end Koschei.Lib.Worklist
