import Koschei.Lib.Names
import Mathlib.Combinatorics.SimpleGraph.Walk.Operations

/-!
# Spreading along links, level by level

Links join nodes of a list. What spreads from some nodes reaches, level after
level, the nodes that are linked to those of the level before and were not
reached yet. It stops when a level is empty, or at a limit.

The nodes that are reached are those at the end of a walk that begins in a
start and is no longer than the limit.
-/

namespace Koschei.Lib

variable {α : Type}

/-- Pairs of nodes, each of them a link in both directions. -/
structure Links (α : Type) where
  nodes : List α
  pairs : List (α × α)
  within : ∀ pair ∈ pairs, pair.1 ∈ nodes ∧ pair.2 ∈ nodes

namespace Links

/-- A pair joins the two, in one direction or the other. -/
def Linked (links : Links α) (a b : α) : Prop := (a, b) ∈ links.pairs ∨ (b, a) ∈ links.pairs

def graph (links : Links α) : SimpleGraph α := SimpleGraph.fromRel fun a b => (a, b) ∈ links.pairs

variable {a b : α} {links : Links α}

theorem mem_nodes_of_linked (linked : links.Linked a b) : b ∈ links.nodes := by
  rcases linked with forwards | backwards
  · exact (links.within _ forwards).2
  · exact (links.within _ backwards).1

variable {links : Links α} {starts : List α}

/-! ## What is near -/

/-- The node is a number of links, or fewer, from a start. -/
inductive Near (links : Links α) (starts : List α) : Nat → α → Prop where
  | start {hops : Nat} {a : α} (member : a ∈ starts) : Near links starts hops a
  | step {hops : Nat} {a b : α} (near : Near links starts hops a) (linked : links.Linked a b) :
      Near links starts (hops + 1) b

variable {hops more : Nat}

theorem Near.further (near : Near links starts hops a) : Near links starts (hops + 1) a := by
  induction near with
  | start member => exact .start member
  | step _ linked ih => exact .step ih linked

theorem Near.mono (near : Near links starts hops a)
    (less : hops ≤ more) : Near links starts more a := by
  induction less with
  | refl => exact near
  | step _ ih => exact ih.further

variable {hops : Nat}

theorem Near.walk {b : α} (near : Near links starts hops b) :
    ∃ a ∈ starts, ∃ walk : links.graph.Walk a b, walk.length ≤ hops := by
  induction near with
  | @start _ a member => exact ⟨a, member, .nil, Nat.zero_le _⟩
  | @step hops b c _ linked ih =>
    obtain ⟨a, member, walk, short⟩ := ih
    by_cases same : b = c
    · subst same
      exact ⟨a, member, walk, Nat.le_succ_of_le short⟩
    · have adjacent : links.graph.Adj b c := ⟨same, linked⟩
      refine ⟨a, member, walk.concat adjacent, ?_⟩
      rw [SimpleGraph.Walk.length_concat]
      exact Nat.succ_le_succ short

theorem near_of_walk (walk : links.graph.Walk a b)
    (near : Near links starts hops a) : Near links starts (hops + walk.length) b := by
  induction walk generalizing hops with
  | nil => exact near
  | cons adjacent walk ih =>
    have later := ih (near.step adjacent.2)
    rw [SimpleGraph.Walk.length_cons]
    exact later.mono (by omega)

/-- The near nodes are those at the end of a short walk. -/
theorem near_iff : Near links starts hops b ↔
    ∃ a ∈ starts, ∃ walk : links.graph.Walk a b, walk.length ≤ hops := by
  refine ⟨Near.walk, ?_⟩
  rintro ⟨a, member, walk, short⟩
  have near : Near links starts 0 a := .start member
  exact (near_of_walk walk near).mono (by omega)

/-! ## What is reached -/

/-- What is reached some hops on: the nodes that near, and every node that is linked to one of them
but for the last level. -/
structure Reached (links : Links α) (starts : List α) (hops : Nat) (reached level : List α) :
    Prop where
  near : ∀ a, a ∈ reached ↔ Near links starts hops a
  closed : ∀ a ∈ reached, a ∉ level → ∀ b, links.Linked a b → b ∈ reached

theorem reached_start : Reached links starts 0 starts starts where
  near a := by
    refine ⟨.start, fun near => ?_⟩
    cases near with
    | start member => exact member
  closed a member outside := absurd member outside

/-- Once a level is empty nothing further is near. -/
theorem Reached.ended {reached : List α} (here : Reached links starts hops reached [])
    (near : Near links starts more a) : a ∈ reached := by
  induction near with
  | start member => exact (here.near _).mpr (.start member)
  | step _ linked ih => exact here.closed _ ih not_mem_nil _ linked

/-- The node is within the limit of hops from a start, at any distance when there is none. -/
def NearWithin (links : Links α) (starts : List α) (limit : Option Nat) (a : α) : Prop :=
  match limit with
  | some bound => Near links starts bound a
  | none => ∃ hops, Near links starts hops a

/-! ## Levels -/

section Levels

variable [DecidableEq α]

/-- The nodes that are linked to a node. -/
def neighbours (links : Links α) (a : α) : List α :=
  (links.pairs.filter fun pair => pair.1 = a).map snd ++
    (links.pairs.filter fun pair => pair.2 = a).map fst

theorem mem_neighbours {a b : α} : b ∈ links.neighbours a ↔ links.Linked a b := by
  unfold neighbours Linked
  rw [mem_append]
  refine or_congr ?_ ?_
  · rw [mem_map]
    constructor
    · rintro ⟨⟨c, d⟩, member, rfl⟩
      obtain ⟨isPair, same⟩ := mem_filter.mp member
      exact of_decide_eq_true same ▸ isPair
    · intro member
      exact ⟨(a, b), mem_filter.mpr ⟨member, decide_eq_true rfl⟩, rfl⟩
  · rw [mem_map]
    constructor
    · rintro ⟨⟨c, d⟩, member, rfl⟩
      obtain ⟨isPair, same⟩ := mem_filter.mp member
      exact of_decide_eq_true same ▸ isPair
    · intro member
      exact ⟨(b, a), mem_filter.mpr ⟨member, decide_eq_true rfl⟩, rfl⟩

def next (links : Links α) (reached level : List α) : List α :=
  ((level.flatMap links.neighbours).filter fun a => a ∉ reached).dedup

variable {reached level : List α}

theorem mem_next {b : α} :
    b ∈ links.next reached level ↔ b ∉ reached ∧ ∃ a ∈ level, links.Linked a b := by
  unfold next
  rw [mem_dedup, mem_filter, mem_flatMap, decide_eq_true_eq, and_comm]
  refine and_congr_right fun _ => exists_congr fun a => and_congr_right fun _ => mem_neighbours

def ahead (links : Links α) (reached : List α) : List α := links.nodes.filter fun a => a ∉ reached

theorem ahead_lt (more : links.next reached level ≠ []) :
    (links.ahead (reached ++ links.next reached level)).length < (links.ahead reached).length := by
  obtain ⟨b, member⟩ := exists_mem_of_ne_nil _ more
  obtain ⟨fresh, a, -, linked⟩ := mem_next.mp member
  have fewer : links.ahead (reached ++ links.next reached level) =
      (links.ahead reached).filter fun a => a ∉ links.next reached level := by
    unfold ahead
    rw [List.filter_filter]
    refine filter_congr fun c _ => ?_
    rw [Bool.eq_iff_iff, and_eq_true, decide_eq_true_eq, decide_eq_true_eq,
      decide_eq_true_eq, mem_append, not_or, and_comm]
  rw [fewer]
  refine List.length_filter_lt_length_iff_exists.mpr ⟨b, ?_, ?_⟩
  · exact mem_filter.mpr ⟨mem_nodes_of_linked linked, decide_eq_true fresh⟩
  · simpa using member

/-- What is reached from some nodes and a level of them, some hops on, up to a limit of hops. -/
def spread (links : Links α) (limit : Option Nat) (hops : Nat) (reached level : List α) : List α :=
  if level = [] ∨ (∃ bound ∈ limit, bound ≤ hops) then reached
  else spread links limit (hops + 1) (reached ++ links.next reached level)
    (links.next reached level)
termination_by ((links.ahead reached).length, level.length)
decreasing_by
  rename_i goes
  by_cases empty : links.next reached level = []
  · rw [empty, append_nil]
    exact Prod.Lex.right _ (List.length_pos_iff.mpr fun none => goes (.inl none))
  · exact Prod.Lex.left _ _ (ahead_lt empty)

theorem Reached.next {reached level : List α}
    (here : Reached links starts hops reached level) (inside : level ⊆ reached) :
    Reached links starts (hops + 1) (reached ++ links.next reached level)
      (links.next reached level) where
  near b := by
    rw [mem_append]
    constructor
    · rintro (before | new)
      · exact ((here.near b).mp before).further
      · obtain ⟨-, a, member, linked⟩ := mem_next.mp new
        exact .step ((here.near a).mp (inside member)) linked
    · intro near
      by_cases before : b ∈ reached
      · exact .inl before
      · cases near with
        | start member => exact .inl ((here.near b).mpr (.start member))
        | step earlier linked =>
          rename_i a
          have member := (here.near a).mpr earlier
          by_cases last : a ∈ level
          · exact .inr (mem_next.mpr ⟨before, a, last, linked⟩)
          · exact .inl (here.closed a member last b linked)
  closed a member outside b linked := by
    have before : a ∈ reached := (mem_append.mp member).resolve_right outside
    by_cases last : a ∈ level
    · by_cases known : b ∈ reached
      · exact mem_append_left _ known
      · exact mem_append_right _ (mem_next.mpr ⟨known, a, last, linked⟩)
    · exact mem_append_left _ (here.closed a before last b linked)

theorem mem_spread {limit : Option Nat}
    (here : Reached links starts hops reached level) (inside : level ⊆ reached)
    (below : ∀ bound ∈ limit, hops ≤ bound) (a : α) :
    a ∈ links.spread limit hops reached level ↔ NearWithin links starts limit a := by
  fun_induction spread links limit hops reached level with
  | case1 hops reached level stops =>
    rcases stops with empty | ⟨bound, isLimit, met⟩
    · subst empty
      cases limit with
      | none => exact ⟨fun member => ⟨hops, (here.near a).mp member⟩, fun ⟨_, near⟩ => here.ended near⟩
      | some bound =>
        refine ⟨fun member => ((here.near a).mp member).mono (below bound rfl), ?_⟩
        exact fun near => here.ended near
    · have exact_limit : hops = bound := Nat.le_antisymm (below bound isLimit) met
      rw [Option.mem_def.mp isLimit, ← exact_limit]
      exact here.near a
  | case2 hops reached level goes ih =>
    refine ih (here.next inside) (List.subset_append_right _ _) fun bound isLimit => ?_
    have short := below bound isLimit
    have unmet : ¬ bound ≤ hops := fun met => goes (.inr ⟨bound, isLimit, met⟩)
    omega

theorem mem_spread_starts (limit : Option Nat) (a : α) :
    a ∈ links.spread limit 0 starts starts ↔ NearWithin links starts limit a :=
  mem_spread reached_start (Subset.refl _) (fun _ _ => Nat.zero_le _) a

end Levels

end Links

end Koschei.Lib
