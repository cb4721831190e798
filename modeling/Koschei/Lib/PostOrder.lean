import Koschei.Lib.Names

/-!
# Visiting a graph in post-order

A depth-first visit from a root: a node is marked when the visit enters it and
listed when the visit leaves it, after the nodes it leads to. The visit is given
fuel for the depth of its recursion; a fuel above the number of nodes is always
enough, cycles or not, because no node is entered twice.
-/

namespace Koschei.Lib

variable {K : Type}

/-- Where a visit is: the nodes it has entered, and those it has left, in order. -/
structure Visit (K : Type) where
  visited : List K
  ordered : List K

section Visits

variable [DecidableEq K] (next : K → List K)

/-- Visit a node, unless it has been entered already. -/
def visit : Nat → K → Visit K → Visit K
  | 0, _, state => state
  | fuel + 1, key, state =>
    if key ∈ state.visited then state
    else
      let inside := (next key).foldl (fun state target => visit fuel target state)
        ⟨key :: state.visited, state.ordered⟩
      ⟨inside.visited, inside.ordered ++ [key]⟩

/-- The nodes in the order in which a visit from the root leaves them. -/
def postOrder (fuel : Nat) (root : K) : List K := (visit next fuel root ⟨[], []⟩).ordered

end Visits

variable {next : K → List K}

/-- What a visit does to its state: no node is forgotten, every node that was entered on the way
has been left, and whatever was listed on the way has only entered successors. -/
structure Grown (next : K → List K) (before after : Visit K) : Prop where
  visited : before.visited ⊆ after.visited
  ordered : before.ordered ⊆ after.ordered
  left : ∀ key ∈ after.visited, key ∈ before.visited ∨ key ∈ after.ordered
  entered : ∀ key ∈ after.ordered, key ∈ before.ordered ∨ key ∈ after.visited ∧ key ∉ before.visited
  closed : ∀ key ∈ after.ordered, key ∈ before.ordered ∨ next key ⊆ after.visited
  once : before.ordered.Nodup → before.ordered ⊆ before.visited → after.ordered.Nodup

theorem Grown.refl (state : Visit K) : Grown next state state :=
  ⟨Subset.refl _, Subset.refl _, fun _ => .inl, fun _ => .inl, fun _ => .inl, fun once _ => once⟩

theorem Grown.ordered_visited {before after : Visit K} (grown : Grown next before after)
    (subset : before.ordered ⊆ before.visited) : after.ordered ⊆ after.visited := by
  intro key member
  rcases grown.entered key member with earlier | ⟨entered, -⟩
  · exact grown.visited (subset earlier)
  · exact entered

theorem Grown.trans {a b c : Visit K} (first : Grown next a b) (second : Grown next b c) :
    Grown next a c where
  visited := Subset.trans first.visited second.visited
  ordered := Subset.trans first.ordered second.ordered
  left := by
    intro key member
    rcases second.left key member with earlier | listed
    · exact (first.left key earlier).imp_right fun listed => second.ordered listed
    · exact .inr listed
  entered := by
    intro key member
    rcases second.entered key member with earlier | ⟨entered, unseen⟩
    · exact (first.entered key earlier).imp_right fun entered =>
        ⟨second.visited entered.1, entered.2⟩
    · exact .inr ⟨entered, fun seen => unseen (first.visited seen)⟩
  closed := by
    intro key member
    rcases second.closed key member with earlier | closed
    · exact (first.closed key earlier).imp_right fun closed =>
        Subset.trans closed second.visited
    · exact .inr closed
  once := fun once subset => second.once (first.once once subset) (first.ordered_visited subset)

variable [DecidableEq K]

/-- The nodes that have not been entered. -/
def unvisited (nodes visited : List K) : List K := nodes.filter fun key => key ∉ visited

theorem unvisited_mono {nodes a b : List K} (more : a ⊆ b) :
    (unvisited nodes b).length ≤ (unvisited nodes a).length := by
  apply List.Sublist.length_le
  apply List.monotone_filter_right
  intro key unseen
  rw [decide_eq_true_eq] at unseen ⊢
  exact fun seen => unseen (more seen)

theorem unvisited_lt {nodes visited : List K} {key : K} (inside : key ∈ nodes)
    (unseen : key ∉ visited) :
    (unvisited nodes (key :: visited)).length < (unvisited nodes visited).length := by
  induction nodes with
  | nil => cases inside
  | cons node nodes ih =>
    unfold unvisited at ih ⊢
    rw [filter_cons, filter_cons]
    by_cases same : node = key
    · subst same
      rw [if_neg (by simp), if_pos (by simpa using unseen), length_cons]
      exact Nat.lt_succ_of_le (unvisited_mono fun _ => mem_cons_of_mem _)
    · have rest := ih ((mem_cons.mp inside).resolve_left fun h => same h.symm)
      by_cases seen : node ∈ visited
      · rw [if_neg (by simp [seen]), if_neg (by simp [seen])]
        exact rest
      · rw [if_pos (by simp [seen, same]), if_pos (by simp [seen]), length_cons, length_cons]
        exact Nat.succ_lt_succ rest

/-- A visit with enough fuel enters its node, and leaves every node it enters. -/
theorem visit_grown {nodes : List K} (inside : ∀ key ∈ nodes, next key ⊆ nodes) (fuel : Nat) :
    ∀ {key : K} {state : Visit K}, key ∈ nodes → (unvisited nodes state.visited).length < fuel →
      Grown next state (visit next fuel key state) ∧ key ∈ (visit next fuel key state).visited := by
  induction fuel with
  | zero =>
    intro key state _ enough
    exact absurd enough (Nat.not_lt_zero _)
  | succ fuel ih =>
    intro key state member enough
    -- All successors, one after the other: each visit only adds to what has been entered.
    have all : ∀ (targets : List K), targets ⊆ nodes → ∀ {state : Visit K},
        (unvisited nodes state.visited).length < fuel →
          Grown next state (targets.foldl (fun state target => visit next fuel target state)
            state) ∧
          targets ⊆ (targets.foldl (fun state target => visit next fuel target state)
            state).visited := by
      intro targets
      induction targets with
      | nil =>
        intro _ state _
        exact ⟨Grown.refl state, nil_subset _⟩
      | cons target targets ihTargets =>
        intro subset state enough
        obtain ⟨one, entered⟩ := ih (subset mem_cons_self) enough
        have still := Nat.lt_of_le_of_lt (unvisited_mono one.visited) enough
        obtain ⟨others, rest⟩ :=
          ihTargets (fun other member => subset (mem_cons_of_mem _ member)) still
        refine ⟨one.trans others, ?_⟩
        exact cons_subset.mpr ⟨others.visited entered, rest⟩
    unfold visit
    split
    · rename_i seen
      exact ⟨Grown.refl state, seen⟩
    · rename_i unseen
      have less := unvisited_lt member unseen
      have inner : (unvisited nodes (Visit.mk (key :: state.visited) state.ordered).visited).length
          < fuel := Nat.lt_of_lt_of_le less (Nat.le_of_lt_succ enough)
      obtain ⟨grown, targets⟩ := all (next key) (inside key member) inner
      dsimp only
      have entered := grown.visited (mem_cons_self (a := key) (l := state.visited))
      refine ⟨⟨?_, ?_, ?_, ?_, ?_, ?_⟩, entered⟩
      · exact Subset.trans (subset_cons_self _ _) grown.visited
      · exact Subset.trans grown.ordered (List.subset_append_left _ _)
      · intro other member
        rcases grown.left other member with earlier | listed
        · rcases mem_cons.mp earlier with rfl | earlier
          · exact .inr (mem_append_right _ (mem_singleton.mpr rfl))
          · exact .inl earlier
        · exact .inr (mem_append_left _ listed)
      · intro other member
        rcases mem_append.mp member with listed | last
        · refine (grown.entered other listed).imp_right fun found => ⟨found.1, fun seen => ?_⟩
          exact found.2 (mem_cons_of_mem _ seen)
        · rw [mem_singleton.mp last]
          exact .inr ⟨entered, unseen⟩
      · intro other member
        rcases mem_append.mp member with listed | last
        · exact grown.closed other listed
        · rw [mem_singleton.mp last]
          exact .inr targets
      · intro once subset
        have listedOnce := grown.once once (Subset.trans subset (subset_cons_self _ _))
        rw [nodup_append]
        refine ⟨listedOnce, nodup_singleton key, ?_⟩
        rintro other listed last isLast rfl
        rw [mem_singleton.mp isLast] at listed
        -- The node itself was entered before its successors were visited.
        rcases grown.entered key listed with earlier | ⟨-, fresh⟩
        · exact unseen (subset earlier)
        · exact fresh mem_cons_self

section PostOrder

variable {nodes : List K} {root : K}

section

variable (inside : ∀ key ∈ nodes, next key ⊆ nodes)
  (member : root ∈ nodes)

include inside member

theorem postOrder_grown : Grown next ⟨[], []⟩ (visit next (nodes.length + 1) root ⟨[], []⟩) := by
  have enough : (unvisited nodes (Visit.mk ([] : List K) []).visited).length < nodes.length + 1 :=
    Nat.lt_succ_of_le (List.length_filter_le _ _)
  exact (visit_grown inside (nodes.length + 1) member enough).1

theorem postOrder_nodup : (postOrder next (nodes.length + 1) root).Nodup :=
  (postOrder_grown inside member).once nodup_nil (nil_subset _)

theorem postOrder_closed {key target : K} (listed : key ∈ postOrder next (nodes.length + 1) root)
    (leads : target ∈ next key) : target ∈ postOrder next (nodes.length + 1) root := by
  have grown := postOrder_grown inside member
  have entered := (grown.closed key listed).resolve_left not_mem_nil leads
  exact (grown.left target entered).resolve_left not_mem_nil

end

/-- The root comes last. -/
theorem postOrder_root (fuel : Nat) :
    ∃ before, postOrder next (fuel + 1) root = before ++ [root] := by
  unfold postOrder visit
  rw [if_neg not_mem_nil]
  exact ⟨_, rfl⟩

end PostOrder

end Koschei.Lib
