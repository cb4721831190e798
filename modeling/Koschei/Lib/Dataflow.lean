import Koschei.Lib.Checks
import Mathlib.Algebra.Order.BigOperators.Group.Finset

/-!
# Forward must-analysis by chaotic iteration

A must-analysis keeps, for every node of a graph, either nothing (no path to
the node has been seen) or a finite set of facts. A sweep visits the blocks in a
fixed order; a block whose node has facts sends a candidate set along each outgoing
edge, and the target keeps the intersection of what it had with the candidate.
Sweeps repeat until one changes nothing.

The result is inductive: the facts kept at the target of an edge are contained
in the candidate its source sends (`solve_inductive`). A sweep that changes
something lowers a potential, so a number of sweeps read off the size of the
graph and of the domain of facts suffices (`solve_ne_outOfFuel`). Where edges only add facts,
the facts kept at a node are those that every path to it brings (`solve_exact`).
-/

namespace Koschei.Lib.Dataflow

variable {B N F : Type} [DecidableEq N] [DecidableEq F]

/-- What is known at each node: nothing yet, or a set of facts. -/
abbrev Incoming (N F : Type) := N → Option (Finset F)

/-- A graph to analyse: its blocks in the order of the sweep, the node each
block stands at, and the candidates a block sends along its outgoing edges. -/
structure Graph (B N F : Type) where
  blocks : List B
  node : B → N
  transfer : B → Finset F → List (N × Finset F)

/-- The nodes of a graph, in the order of the sweep. -/
def Graph.nodes (graph : Graph B N F) : List N := graph.blocks.map graph.node

/-- Why an analysis stops without a result. -/
inductive Failure (N : Type) where
  | unknownTarget (node : N)
  | outOfFuel
  deriving DecidableEq

/-- The facts kept when a candidate arrives. -/
def merge (current : Option (Finset F)) (candidate : Finset F) : Finset F := match current with
  | none => candidate
  | some facts => facts ∩ candidate

/-- Send one candidate along one edge, remembering whether anything changed. -/
def sendEdge (nodes : List N) (progress : Incoming N F × Bool) (edge : N × Finset F) :
    Except (Failure N) (Incoming N F × Bool) :=
  if edge.1 ∈ nodes then
    if some (merge (progress.1 edge.1) edge.2) = progress.1 edge.1 then
      .ok progress
    else
      .ok (Function.update progress.1 edge.1 (some (merge (progress.1 edge.1) edge.2)), true)
  else
    .error (.unknownTarget edge.1)

/-- Send the candidates of one block along its edges. -/
def visit (graph : Graph B N F) (progress : Incoming N F × Bool) (block : B) :
    Except (Failure N) (Incoming N F × Bool) :=
  match progress.1 (graph.node block) with
  | none => .ok progress
  | some facts => (graph.transfer block facts).foldlM (sendEdge graph.nodes) progress

/-- Visit every block once. -/
def sweep (graph : Graph B N F) (incoming : Incoming N F) :
    Except (Failure N) (Incoming N F × Bool) :=
  graph.blocks.foldlM (visit graph) (incoming, false)

/-- Sweep until nothing changes. -/
def solve (graph : Graph B N F) : Nat → Incoming N F → Except (Failure N) (Incoming N F)
  | 0, _ => .error .outOfFuel
  | fuel + 1, incoming =>
    match sweep graph incoming with
    | .error failure => .error failure
    | .ok (incoming', true) => solve graph fuel incoming'
    | .ok (incoming', false) => .ok incoming'

/-- An assignment of facts that no edge contradicts. -/
def Inductive (graph : Graph B N F) (incoming : Incoming N F) : Prop :=
  ∀ block ∈ graph.blocks, ∀ facts, incoming (graph.node block) = some facts →
    ∀ edge ∈ graph.transfer block facts, ∃ kept, incoming edge.1 = some kept ∧ kept ⊆ edge.2

/-! ## Folds that may fail -/

section Folds

variable {ε α β : Type} {step : β → α → Except ε β} {P : β → Prop} {E : ε → Prop}

/-- What holds of a result, and what of a failure. -/
def Meets (P : β → Prop) (E : ε → Prop) : Except ε β → Prop
  | .ok b => P b
  | .error e => E e

theorem foldlM_meets : ∀ (items : List α) (b : β),
    (∀ a ∈ items, ∀ b, P b → Meets P E (step b a)) → P b → Meets P E (items.foldlM step b)
  | [], _, _, holds => holds
  | a :: items, b, each, holds => by
    have one := each a mem_cons_self b holds
    rw [foldlM_cons]
    cases made : step b a <;> rw [made] at one
    · exact one
    · exact foldlM_meets items _ (forall_mem_cons.mp each).2 one

/-- A fold whose steps either stand still or leave a mark: if no mark is there at the end, every
step stood still. -/
theorem foldlM_unmarked {M : β → Prop} (moves : ∀ b a b', step b a = .ok b' → b' = b ∨ M b') :
    ∀ (items : List α) (b b' : β), items.foldlM step b = .ok b' → ¬ M b' →
      b' = b ∧ ∀ a ∈ items, step b a = .ok b
  | [], b, b', done, _ => by
    simp only [foldlM_nil, pure, Except.pure, ok.injEq] at done
    exact ⟨done.symm, by simp⟩
  | a :: items, b, b', done, clean => by
    rw [foldlM_cons] at done
    obtain ⟨middle, one, done⟩ := bind_eq_ok done
    obtain ⟨same, still⟩ := foldlM_unmarked moves items middle b' done clean
    rcases moves b a middle one with rfl | mark
    · exact ⟨same, forall_mem_cons.mpr ⟨one, still⟩⟩
    · exact absurd (same ▸ mark) clean

end Folds

/-! ## The potential of an assignment -/

/-- How far a node is from having no facts at all, over a domain of `size` facts. -/
def weight (size : Nat) : Option (Finset F) → Nat
  | none => size + 1
  | some facts => facts.card

/-- The sum of the weights of all nodes. -/
def potential (nodes : List N) (size : Nat) (incoming : Incoming N F) : Nat :=
  ∑ node ∈ nodes.toFinset, weight size (incoming node)

/-- All facts come from a given domain. -/
def Within (domain : Finset F) (incoming : Incoming N F) : Prop :=
  ∀ node facts, incoming node = some facts → facts ⊆ domain

omit [DecidableEq F] in
theorem potential_le {nodes : List N} {domain : Finset F} {incoming : Incoming N F}
    (within : Within domain incoming) :
    potential nodes domain.card incoming ≤ nodes.length * (domain.card + 1) := by
  have each : ∀ node ∈ nodes.toFinset, weight domain.card (incoming node) ≤ domain.card + 1 := by
    intro node _
    cases known : incoming node with
    | none => exact le_refl _
    | some facts => exact (Finset.card_le_card (within node facts known)).trans (Nat.le_succ _)
  calc potential nodes domain.card incoming ≤ nodes.toFinset.card * (domain.card + 1) := by
        simpa [potential] using Finset.sum_le_card_nsmul _ _ _ each
    _ ≤ nodes.length * (domain.card + 1) := Nat.mul_le_mul_right _ (List.toFinset_card_le nodes)

/-- Keeping a strictly different set lowers the weight of a node. -/
theorem weight_merge_lt {domain : Finset F} {current : Option (Finset F)}
    {candidate : Finset F} (small : candidate ⊆ domain)
    (changed : some (merge current candidate) ≠ current) :
    weight domain.card (some (merge current candidate)) < weight domain.card current := by
  cases current with
  | none => exact Nat.lt_succ_of_le (Finset.card_le_card small)
  | some facts =>
    have strict : facts ∩ candidate ⊂ facts := by
      refine lt_of_le_of_ne Finset.inter_subset_left fun same => changed ?_
      simpa [merge] using same
    exact Finset.card_lt_card strict

omit [DecidableEq F] in
theorem potential_update_lt {nodes : List N} {size : Nat} {incoming : Incoming N F} {node : N}
    {facts : Finset F} (member : node ∈ nodes)
    (lower : weight size (some facts) < weight size (incoming node)) :
    potential nodes size (Function.update incoming node (some facts))
      < potential nodes size incoming := by
  refine Finset.sum_lt_sum (fun other _ => ?_) ⟨node, List.mem_toFinset.mpr member, ?_⟩
  · by_cases same : other = node
    · subst same
      rw [update_self]
      exact lower.le
    · rw [update_of_ne same]
  · rwa [update_self]

/-! ## One sweep -/

section Sweep

variable {graph : Graph B N F} {nodes : List N} {domain : Finset F}
  {progress progress' : Incoming N F × Bool} {edge : N × Finset F}

/-- An edge changes nothing, or it brings other facts to its target. -/
theorem sendEdge_cases (sent : sendEdge nodes progress edge = .ok progress') :
    (progress' = progress ∧ some (merge (progress.1 edge.1) edge.2) = progress.1 edge.1) ∨
      (edge.1 ∈ nodes ∧ some (merge (progress.1 edge.1) edge.2) ≠ progress.1 edge.1 ∧ progress' =
        (Function.update progress.1 edge.1 (some (merge (progress.1 edge.1) edge.2)), true)) := by
  unfold sendEdge at sent
  split at sent
  · rename_i member
    split at sent
    · rename_i same
      cases sent
      exact .inl ⟨rfl, same⟩
    · rename_i changed
      cases sent
      exact .inr ⟨member, changed, rfl⟩
  · cases sent

variable {incoming : Incoming N F} {P : Incoming N F × Bool → Prop} {E : Failure N → Prop}

theorem sendEdge_meets (unknown : edge.1 ∉ nodes → E (.unknownTarget edge.1)) (still : P progress)
    (moved : edge.1 ∈ nodes → some (merge (progress.1 edge.1) edge.2) ≠ progress.1 edge.1 →
      P (Function.update progress.1 edge.1 (some (merge (progress.1 edge.1) edge.2)), true)) :
    Meets P E (sendEdge nodes progress edge) := by
  unfold sendEdge
  split
  · rename_i member
    split
    · exact still
    · rename_i changed
      exact moved member changed
  · rename_i other
    exact unknown other

/-- A sweep meets what every edge of a kind meets, when it sends only such edges. -/
theorem sweep_meets {Q : N × Finset F → Prop}
    (sends : ∀ p edge, Q edge → P p → Meets P E (sendEdge graph.nodes p edge))
    (only : ∀ p, ∀ block ∈ graph.blocks, ∀ facts, P p → p.1 (graph.node block) = some facts →
      ∀ edge ∈ graph.transfer block facts, Q edge)
    (holds : P (incoming, false)) : Meets P E (sweep graph incoming) := by
  refine foldlM_meets _ _ (fun block member p before => ?_) holds
  unfold visit
  split
  · exact before
  · rename_i facts known
    -- the candidates are fixed before the first one is sent
    exact foldlM_meets _ _ (fun edge inside p =>
      sends p edge (only _ block member facts before known edge inside)) before

/-- The state of a sweep, against the assignment it started from: nothing has
changed, or the potential went down. -/
def Progressed (nodes : List N) (domain : Finset F) (start : Incoming N F)
    (progress : Incoming N F × Bool) : Prop :=
  Within domain progress.1 ∧ if progress.2 then
      potential nodes domain.card progress.1 < potential nodes domain.card start
    else progress.1 = start

theorem sendEdge_progressed {start : Incoming N F} (small : edge.2 ⊆ domain)
    (before : Progressed nodes domain start progress) :
    Meets (Progressed nodes domain start) (· ≠ .outOfFuel) (sendEdge nodes progress edge) := by
  refine sendEdge_meets nofun before fun member changed => ?_
  obtain ⟨within, status⟩ := before
  have lower := potential_update_lt member (weight_merge_lt small changed)
  refine ⟨?_, ?_⟩
  · intro node facts known
    by_cases same : node = edge.1
    · subst same
      simp only [update_self, some.injEq] at known
      subst known
      cases current : progress.1 edge.1 with
      | none => exact small
      | some _ => exact Finset.inter_subset_right.trans small
    · simp only [update_of_ne same] at known
      exact within node facts known
  · cases mode : progress.2 with
    | false => simpa [mode] using (by simpa [mode] using status) ▸ lower
    | true => simpa using lower.trans (by simpa [mode] using status)

/-- Edges send facts of the domain when they receive facts of the domain. -/
def Closed (graph : Graph B N F) (domain : Finset F) : Prop :=
  ∀ block facts, facts ⊆ domain → ∀ edge ∈ graph.transfer block facts, edge.2 ⊆ domain

theorem sweep_progressed (closed : Closed graph domain) (within : Within domain incoming) :
    Meets (Progressed graph.nodes domain incoming) (· ≠ .outOfFuel) (sweep graph incoming) :=
  sweep_meets (fun _ _ => sendEdge_progressed)
    (fun _ block _ facts before known => closed block facts (before.1 _ facts known)) ⟨within, rfl⟩

end Sweep

/-! ## A sweep that changes nothing -/

section Still

variable {graph : Graph B N F} {nodes : List N} {progress progress' : Incoming N F × Bool}
  {edge : N × Finset F}

theorem sendEdge_moves (sent : sendEdge nodes progress edge = .ok progress') :
    progress' = progress ∨ progress'.2 = true :=
  (sendEdge_cases sent).imp And.left fun ⟨_, _, moved⟩ => congrArg snd moved

/-- An edge along which a candidate changes nothing. -/
theorem kept_of_sendEdge_still {incoming : Incoming N F}
    (still : sendEdge nodes (incoming, false) edge = .ok (incoming, false)) :
    ∃ kept, incoming edge.1 = some kept ∧ kept ⊆ edge.2 := by
  obtain ⟨-, same⟩ | ⟨-, -, moved⟩ := sendEdge_cases still
  · refine ⟨_, same.symm, ?_⟩
    cases current : incoming edge.1 with
    | none => simp [current] at same
    | some facts =>
      simp only [current, merge]
      exact Finset.inter_subset_right
  · cases congrArg snd moved

theorem visit_moves {block : B} (visited : visit graph progress block = .ok progress') :
    progress' = progress ∨ progress'.2 = true := by
  unfold visit at visited
  split at visited
  · cases visited
    exact .inl rfl
  · by_cases mark : progress'.2 = true
    · exact .inr mark
    · exact .inl (foldlM_unmarked (M := fun p => p.2 = true)
        (fun _ _ _ => sendEdge_moves) _ _ _ visited mark).1

/-- A sweep that marks no change leaves an inductive assignment as it was. -/
theorem inductive_of_sweep {incoming incoming' : Incoming N F}
    (swept : sweep graph incoming = .ok (incoming', false)) :
    incoming' = incoming ∧ Inductive graph incoming := by
  obtain ⟨same, still⟩ := foldlM_unmarked (M := fun p => p.2 = true)
    (fun _ _ _ => visit_moves) _ _ _ swept (by simp)
  refine ⟨congrArg fst same, fun block member facts known edge sent => ?_⟩
  have visited : visit graph (incoming, false) block = .ok (incoming, false) := still block member
  simp only [visit, known] at visited
  exact kept_of_sendEdge_still ((foldlM_unmarked (M := fun p => p.2 = true)
    (fun _ _ _ => sendEdge_moves) _ _ _ visited (by simp)).2
    edge sent)

end Still

/-! ## The analysis -/

section Solve

variable {graph : Graph B N F} {nodes : List N} {domain : Finset F}

/-- **The result is inductive.** -/
theorem solve_inductive : ∀ (fuel : Nat) (incoming result : Incoming N F),
    solve graph fuel incoming = .ok result → Inductive graph result
  | 0, _, _, solved => by cases solved
  | fuel + 1, incoming, result, solved => by
    unfold solve at solved
    split at solved
    · cases solved
    · exact solve_inductive fuel _ result solved
    · rename_i last swept
      cases solved
      obtain ⟨same, holds⟩ := inductive_of_sweep swept
      exact same ▸ holds

/-- What every sweep meets, the analysis meets unless it runs out of fuel. -/
theorem solve_meets {P : Incoming N F → Prop} {E : Failure N → Prop}
    (sweeps : ∀ incoming, P incoming → Meets (fun p => P p.1) E (sweep graph incoming)) :
    ∀ (fuel : Nat) (incoming : Incoming N F), P incoming →
      Meets P (fun failure => failure = .outOfFuel ∨ E failure) (solve graph fuel incoming)
  | 0, _, _ => .inl rfl
  | fuel + 1, incoming, holds => by
    have swept := sweeps incoming holds
    unfold solve
    split <;> rename_i one <;> rw [one] at swept
    · exact .inr swept
    · exact solve_meets sweeps fuel _ swept
    · exact swept

/-- A property of assignments kept by every single edge is kept by the analysis. -/
theorem solve_preserves {P : Incoming N F → Prop} {fuel : Nat} {incoming result : Incoming N F}
    (keeps : ∀ (incoming : Incoming N F) (node : N) (candidate : Finset F), node ∈ graph.nodes →
      P incoming → P (Function.update incoming node (some (merge (incoming node) candidate))))
    (solved : solve graph fuel incoming = .ok result) (holds : P incoming) : P result := by
  have met := solve_meets (E := fun _ => True) (fun incoming before =>
    sweep_meets (Q := fun _ => True) (fun p edge _ before => sendEdge_meets (fun _ => trivial) before
      fun member _ => keeps _ _ _ member before) (fun _ _ _ _ _ _ _ _ => trivial) before)
    fuel incoming holds
  rwa [solved] at met

/-- **Enough fuel.** More sweeps than the potential of the start are never needed. -/
theorem solve_ne_outOfFuel (closed : Closed graph domain) :
    ∀ (fuel : Nat) (incoming : Incoming N F), Within domain incoming →
      potential graph.nodes domain.card incoming < fuel →
      solve graph fuel incoming ≠ .error .outOfFuel
  | 0, _, _, enough => absurd enough (Nat.not_lt_zero _)
  | fuel + 1, incoming, within, enough => by
    have swept := sweep_progressed closed within
    unfold solve
    split <;> rename_i one <;> rw [one] at swept
    · exact fun same => swept (Except.error.inj same)
    · obtain ⟨within', lower⟩ := swept
      simp only [if_true] at lower
      exact solve_ne_outOfFuel closed fuel _ within'
        (Nat.lt_of_lt_of_le lower (Nat.le_of_lt_succ enough))
    · simp

end Solve

/-! ## The result is exact -/

section Exact

variable {graph : Graph B N F} {edges : B → List (N × Finset F)} {start result : Incoming N F}

/-- The edges of a block send what the block has, each with facts of its own. -/
def Adds (graph : Graph B N F) (edges : B → List (N × Finset F)) : Prop :=
  ∀ block facts, graph.transfer block facts =
    (edges block).map fun edge => (edge.1, edge.2 ∪ facts)

/-- The facts that a path from the start brings to a node. -/
inductive Brings (graph : Graph B N F) (edges : B → List (N × Finset F)) (start : Incoming N F) :
    N → Finset F → Prop where
  | start {node : N} {facts : Finset F} (known : start node = some facts) :
      Brings graph edges start node facts
  | edge {block : B} {facts : Finset F} {edge : N × Finset F} (member : block ∈ graph.blocks)
      (path : Brings graph edges start (graph.node block) facts) (sent : edge ∈ edges block) :
      Brings graph edges start edge.1 (edge.2 ∪ facts)

/-- A path leads to the node, and every fact outside the set is missing on some path. -/
def Covered (graph : Graph B N F) (edges : B → List (N × Finset F)) (start : Incoming N F)
    (node : N) (facts : Finset F) : Prop :=
  (∃ brought, Brings graph edges start node brought) ∧
    ∀ fact ∉ facts, ∃ brought, Brings graph edges start node brought ∧ fact ∉ brought

/-- A sweep stops only where a path leaves the graph. -/
theorem sweep_covered (adds : Adds graph edges) {incoming : Incoming N F}
    (covered : ∀ node kept, incoming node = some kept → Covered graph edges start node kept) :
    Meets (fun p => ∀ node kept, p.1 node = some kept → Covered graph edges start node kept)
      (fun _ => ∃ node brought, Brings graph edges start node brought ∧ node ∉ graph.nodes)
      (sweep graph incoming) := by
  refine sweep_meets (Q := fun edge => Covered graph edges start edge.1 edge.2)
    (fun p edge sends before => ?_) ?_ covered
  · refine sendEdge_meets (fun unknown => ⟨_, _, sends.1.choose_spec, unknown⟩) before ?_
    intro _ _ node kept known
    dsimp only at known
    by_cases same : node = edge.1
    · subst same
      rw [update_self, some.injEq] at known
      subst known
      cases current : p.1 edge.1 with
      | none => exact sends
      | some facts =>
        refine ⟨sends.1, fun fact missing => ?_⟩
        rcases not_and_or.mp (mt Finset.mem_inter.mpr missing) with old | new
        · exact (before _ _ current).2 fact old
        · exact sends.2 fact new
    · rw [update_of_ne same] at known
      exact before node kept known
  · intro p block member facts before known edge sent
    rw [adds] at sent
    obtain ⟨edge, listed, rfl⟩ := mem_map.mp sent
    obtain ⟨⟨brought, path⟩, lacks⟩ := before _ _ known
    have goes : ∀ {brought}, _ → Brings graph edges start edge.1 (edge.2 ∪ brought) :=
      fun path => .edge member path listed
    refine ⟨⟨_, goes path⟩, fun fact (missing : fact ∉ edge.2 ∪ facts) => ?_⟩
    obtain ⟨own, kept⟩ := not_or.mp (mt Finset.mem_union.mpr missing)
    obtain ⟨brought, path, lacking⟩ := lacks fact kept
    exact ⟨_, goes path, mt Finset.mem_union.mp (not_or.mpr ⟨own, lacking⟩)⟩

variable (start) in
theorem solve_covered (adds : Adds graph edges) (fuel : Nat) :
    Meets (fun result => ∀ node kept, result node = some kept → Covered graph edges start node kept)
      (fun failure => failure = .outOfFuel ∨
        ∃ node brought, Brings graph edges start node brought ∧ node ∉ graph.nodes)
      (solve graph fuel start) :=
  solve_meets (fun _ => sweep_covered adds) fuel start fun _ facts known =>
    ⟨⟨facts, .start known⟩, fun _ missing => ⟨facts, .start known, missing⟩⟩

/-- What is kept at a node is on every path to it. -/
theorem kept_of_brings (adds : Adds graph edges) {fuel : Nat}
    (solved : solve graph fuel start = .ok result) {node : N} {brought : Finset F}
    (path : Brings graph edges start node brought) :
    ∃ kept, result node = some kept ∧ kept ⊆ brought := by
  induction path with
  | @start node facts known =>
    refine solve_preserves (P := fun incoming => ∃ kept, incoming node = some kept ∧ kept ⊆ facts)
      ?_ solved ⟨facts, known, Finset.Subset.refl _⟩
    rintro incoming other candidate - ⟨kept, here, small⟩
    by_cases same : node = other
    · subst same
      exact ⟨_, update_self .., by rw [here]; exact Finset.inter_subset_left.trans small⟩
    · exact ⟨kept, by rw [update_of_ne same, here], small⟩
  | @edge block facts edge member _ sent ih =>
    obtain ⟨kept, here, small⟩ := ih
    have goes : (edge.1, edge.2 ∪ kept) ∈ graph.transfer block kept := by
      rw [adds]
      exact mem_map_of_mem sent
    obtain ⟨kept', there, small'⟩ := solve_inductive _ _ _ solved block member kept here _ goes
    exact ⟨kept', there, small'.trans (Finset.union_subset_union_right small)⟩

/-- **When there is a result.** With enough fuel, exactly when no path leaves the graph. -/
theorem solve_ok_iff (adds : Adds graph edges) {fuel : Nat}
    (inside : ∀ node facts, start node = some facts → node ∈ graph.nodes)
    (enough : solve graph fuel start ≠ .error .outOfFuel) :
    (∃ result, solve graph fuel start = .ok result) ↔
      ∀ node brought, Brings graph edges start node brought → node ∈ graph.nodes := by
  constructor
  · rintro ⟨result, solved⟩ node brought path
    obtain ⟨kept, known, -⟩ := kept_of_brings adds solved path
    refine solve_preserves (P := fun incoming => ∀ node facts, incoming node = some facts →
      node ∈ graph.nodes) ?_ solved inside node kept known
    intro incoming other candidate member before node facts known
    by_cases same : node = other
    · exact same ▸ member
    · exact before node facts (by rwa [update_of_ne same] at known)
  · intro stays
    have covered := solve_covered start adds fuel
    cases solved : solve graph fuel start with
    | ok result => exact ⟨result, rfl⟩
    | error failure =>
      rw [solved] at covered enough
      obtain rfl | ⟨node, brought, path, leaves⟩ := covered
      · exact absurd rfl enough
      · exact absurd (stays node brought path) leaves

/-- **The result is exact.** A fact is kept at a node just in case some path leads there and
every path brings the fact. -/
theorem solve_exact (adds : Adds graph edges) {fuel : Nat}
    (solved : solve graph fuel start = .ok result) (node : N) (fact : F) :
    (∃ kept, result node = some kept ∧ fact ∈ kept) ↔
      (∃ brought, Brings graph edges start node brought) ∧
        ∀ brought, Brings graph edges start node brought → fact ∈ brought := by
  have covered := solve_covered start adds fuel
  rw [solved] at covered
  constructor
  · rintro ⟨kept, known, inside⟩
    refine ⟨(covered node kept known).1, fun brought path => ?_⟩
    obtain ⟨kept', known', small⟩ := kept_of_brings adds solved path
    rw [known, some.injEq] at known'
    exact small (known' ▸ inside)
  · rintro ⟨⟨brought, path⟩, every⟩
    obtain ⟨kept, known, -⟩ := kept_of_brings adds solved path
    refine ⟨kept, known, ?_⟩
    by_contra missing
    obtain ⟨brought, path, lacks⟩ := (covered node kept known).2 fact missing
    exact lacks (every brought path)

end Exact

end Koschei.Lib.Dataflow
