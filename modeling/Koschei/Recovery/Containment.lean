import Koschei.Recovery.BlastRadius

/-!
# Containment of several compromises

`library_containment_optimizer_v0.py` turns the blast radius of a compromise into
a recommendation: what is affected is isolated, and the edges at the boundary are
cut. `library_multi_scenario_containment_v0.py` merges recommendations for one
graph. A root that is preserved in the end is isolated in none of them, so an
edge that joins it to an isolated root is at the boundary of a recommendation that
isolates the other end.
-/

namespace Koschei.Recovery

open Lib
open ContainmentFault (optimizer)

/-! ## Recommendations -/

/-- `RootServiceWeightV0`. -/
structure RootServiceWeightV0 where
  rootId : String
  serviceValue : Int
  disruptionCost : Int
  deriving DecidableEq

/-- `ContainmentPolicyV0`. -/
structure ContainmentPolicyV0 where
  maxDisruptionCost : Int
  requireFullBoundaryCut : Bool
  authority : Bool
  deriving DecidableEq

/-- `ContainmentRecommendationV0`. -/
structure ContainmentRecommendationV0 where
  graphDigest : Bytes
  radiusDigest : Bytes
  cutEdges : List (String × String)
  preservedRoots : List String
  isolatedRoots : List String
  preservedServiceValue : Int
  disruptionCost : Int
  recommendationDigest : Bytes
  feasible : Bool
  authority : Bool
  deriving DecidableEq

open ContainmentRecommendationV0 (recommendationDigest)

/-- The checks of the weights, after some weights. -/
def checkWeights (known : List String) : List RootServiceWeightV0 → List RootServiceWeightV0 →
    Contained Unit
  | _, [] => .ok ()
  | before, weight :: weights => do
    raiseIf (weight.rootId ∉ known ∨ weight.rootId ∈ before.map RootServiceWeightV0.rootId)
      (optimizer "weights must name distinct known roots")
    raiseIf (weight.serviceValue < 0 ∨ weight.disruptionCost < 0)
      (optimizer "service/disruption weights must be non-negative integers")
    checkWeights known (before ++ [weight]) weights

/-- `by_root[root]`. -/
def weightOf (weights : List RootServiceWeightV0) (root : String) : Contained RootServiceWeightV0 :=
  match weights.find? fun weight => decide (weight.rootId = root) with
  | some weight => .ok weight
  | none => .error .key

/-- The affected and the safe roots do not divide the known ones. -/
def BadPartition (known affected safe : List String) : Prop :=
  (∃ root ∈ affected, root ∈ safe) ∨ ¬ affected ⊆ known ∨ ¬ safe ⊆ known ∨
    ∃ root ∈ known, root ∉ affected ∧ root ∉ safe

instance (known affected safe : List String) : Decidable (BadPartition known affected safe) := by
  unfold BadPartition
  infer_instance

def optimizerContext : Bytes := encode "koschei.library-containment-optimizer/v0\x00"

/-- What the digest of a recommendation says of a weight. -/
def weightText (weight : RootServiceWeightV0) : Contained Bytes := do
  let value ← raised (intBytes 8 weight.serviceValue)
  let cost ← raised (intBytes 8 weight.disruptionCost)
  .ok (encode "W\x00" ++ encode weight.rootId ++ [0] ++ value ++ cost)

section Optimizer

variable (sha3 : Bytes → Bytes)

/-- `optimize_containment_v0`. -/
def optimizeContainmentV0 (graph : LibraryTrustGraphV0) (radius : BlastRadiusV0)
    (weights : List RootServiceWeightV0) (policy : ContainmentPolicyV0) :
    Contained ContainmentRecommendationV0 := do
  let verified ← raised (verifyLibraryTrustGraphV0 sha3 graph)
  raiseIf (¬ verified) (optimizer "verified canonical trust graph required")
  raiseIf radius.authority (optimizer "authority-free blast radius required")
  raiseIf (radius.graphDigest ≠ graph.graphDigest)
    (optimizer "blast-radius/graph mismatch")
  raiseIf policy.authority
    (optimizer "immutable weights and authority-free policy required")
  raiseIf (policy.maxDisruptionCost < 0) (optimizer "invalid disruption budget")
  checkWeights graph.roots [] weights
  raiseIf (¬ graph.roots ⊆ weights.map RootServiceWeightV0.rootId)
    (optimizer "weights required for every graph root")
  raiseIf (BadPartition graph.roots radius.affectedRoots radius.safeRoots)
    (optimizer "blast radius root partition invalid")
  let isolated := sortedRoots radius.affectedRoots
  let lost ← isolated.mapM (weightOf weights)
  let kept ← (sortedRoots radius.safeRoots).mapM (weightOf weights)
  let disruption := (lost.map RootServiceWeightV0.disruptionCost).sum
  let feasible := decide (disruption ≤ policy.maxDisruptionCost)
  -- An infeasible containment is not weakened: nothing counts as preserved.
  let preserved := if feasible then sortedRoots radius.safeRoots else []
  let serviceValue := if feasible then (kept.map RootServiceWeightV0.serviceValue).sum else 0
  let cut := sortedPairs radius.boundaryCutEdges
  let radiusDigest ← containedDigest .optimizer radius.radiusDigest "radius_digest"
  let budget ← raised (intBytes 8 policy.maxDisruptionCost)
  let ordered ← (sortedRoots graph.roots).mapM (weightOf weights)
  let texts ← ordered.mapM weightText
  let valueBytes ← raised (intBytes 8 serviceValue)
  let costBytes ← raised (intBytes 8 disruption)
  .ok {
    graphDigest := graph.graphDigest
    radiusDigest := radius.radiusDigest
    cutEdges := cut
    preservedRoots := preserved
    isolatedRoots := isolated
    preservedServiceValue := serviceValue
    disruptionCost := disruption
    recommendationDigest := sha3 (optimizerContext ++ graph.graphDigest ++ radiusDigest ++ budget ++
      [if policy.requireFullBoundaryCut then 1 else 0] ++ texts.flatten ++
      cut.flatMap (pairText "C") ++ preserved.flatMap (rootText "P") ++
      isolated.flatMap (rootText "I") ++ valueBytes ++ costBytes ++
      encode (if feasible then "OK" else "DENY"))
    feasible := feasible
    authority := false }

end Optimizer

/-! ## Several scenarios -/

/-- `MultiScenarioContainmentV0`, with the fields that the recovery does not read. -/
structure CombinedContainmentV0 extends MultiScenarioContainmentV0 where
  scenarioDigests : List Bytes
  preservedRoots : List String
  cutEdges : List (String × String)
  deriving DecidableEq

/-- What was merged of some scenarios. -/
structure Merged where
  isolated : List String
  cuts : List (String × String)
  digests : List Bytes
  feasible : Bool
  deriving DecidableEq

def Merged.start : Merged := ⟨[], [], [], true⟩

/-- A cut edge that is not one between two known roots. -/
def BadCut (known : List String) (pair : String × String) : Prop :=
  pair.1 ∉ known ∨ pair.2 ∉ known ∨ pair.1 = pair.2

instance (known : List String) (pair : String × String) : Decidable (BadCut known pair) := by
  unfold BadCut
  infer_instance

/-- One scenario more. -/
def mergeScenario (graph : LibraryTrustGraphV0) (merged : Merged)
    (scenario : ContainmentRecommendationV0) : Contained Merged := do
  raiseIf scenario.authority
    (ContainmentFault.scenarios "authority-free containment recommendation required")
  raiseIf (scenario.graphDigest ≠ graph.graphDigest)
    (ContainmentFault.scenarios "scenario/graph mismatch")
  let digest ← containedDigest .scenarios scenario.recommendationDigest "recommendation_digest"
  raiseIf (digest ∈ merged.digests)
    (ContainmentFault.scenarios "duplicate containment scenario forbidden")
  raiseIf (¬ scenario.isolatedRoots ⊆ graph.roots)
    (ContainmentFault.scenarios "scenario isolates unknown root")
  raiseIf (∃ pair ∈ scenario.cutEdges, BadCut graph.roots pair)
    (ContainmentFault.scenarios "invalid scenario cut edge")
  .ok ⟨merged.isolated ++ scenario.isolatedRoots, merged.cuts ++ scenario.cutEdges,
    merged.digests ++ [digest], merged.feasible && scenario.feasible⟩

/-- What scenarios are sorted by. -/
def scenarioKey (scenario : ContainmentRecommendationV0) : List Nat :=
  byteOrder scenario.recommendationDigest

def scenariosContext : Bytes := encode "koschei.library-multi-scenario-containment/v0\x00"

section Scenarios

variable (sha3 : Bytes → Bytes)

def combined (graph : LibraryTrustGraphV0) (merged : Merged) : CombinedContainmentV0 :=
  let preserved :=
    if merged.feasible then graph.roots.filter fun root => root ∉ merged.isolated else []
  let digests := sortByKey byteOrder merged.digests
  { graphDigest := graph.graphDigest
    isolatedRoots := sortedRoots merged.isolated
    combinedDigest := sha3 (scenariosContext ++ graph.graphDigest ++
      digests.flatMap (fun digest => encode "S\x00" ++ digest) ++
      (sortedRoots merged.isolated).flatMap (rootText "I") ++
      (sortedRoots preserved).flatMap (rootText "P") ++
      (sortedPairs merged.cuts).flatMap (pairText "C") ++
      encode (if merged.feasible then "OK" else "DENY"))
    feasible := merged.feasible
    authority := false
    scenarioDigests := digests
    preservedRoots := sortedRoots preserved
    cutEdges := sortedPairs merged.cuts }

/-- `combine_containment_scenarios_v0`. -/
def combineContainmentScenariosV0 (graph : LibraryTrustGraphV0)
    (scenarios : List ContainmentRecommendationV0) : Contained CombinedContainmentV0 := do
  let verified ← raised (verifyLibraryTrustGraphV0 sha3 graph)
  raiseIf (¬ verified) (ContainmentFault.scenarios "verified canonical trust graph required")
  raiseIf (scenarios = [])
    (ContainmentFault.scenarios "non-empty immutable scenario tuple required")
  let merged ← (sortByKey scenarioKey scenarios).foldlM (mergeScenario graph) Merged.start
  .ok (combined sha3 graph merged)

end Scenarios

/-! ## What a recommendation separates -/

/-- The recommendation is made for a radius of the graph. -/
def Recommended (sha3 : Bytes → Bytes) (graph : LibraryTrustGraphV0)
    (scenario : ContainmentRecommendationV0) : Prop :=
  ∃ plan maxHops radius weights policy, deriveBlastRadiusV0 sha3 graph plan maxHops = .ok radius ∧
    optimizeContainmentV0 sha3 graph radius weights policy = .ok scenario

/-- What is known of a recommendation. -/
structure Separates (graph : LibraryTrustGraphV0) (scenario : ContainmentRecommendationV0) :
    Prop where
  authority : scenario.authority = false
  graphDigest : scenario.graphDigest = graph.graphDigest
  isolated : scenario.isolatedRoots ⊆ graph.roots
  known : ∀ pair ∈ scenario.cutEdges, pair.1 ∈ graph.roots ∧ pair.2 ∈ graph.roots
  apart : ∀ pair ∈ scenario.cutEdges, pair.1 ≠ pair.2
  leaving : ∀ pair ∈ graph.pairs, pair.1 ∈ scenario.isolatedRoots → pair.2 ∈ graph.roots →
    pair.2 ∉ scenario.isolatedRoots → pair ∈ scenario.cutEdges
  entering : ∀ pair ∈ graph.pairs, pair.2 ∈ scenario.isolatedRoots → pair.1 ∈ graph.roots →
    pair.1 ∉ scenario.isolatedRoots → pair ∈ scenario.cutEdges

variable {graph : LibraryTrustGraphV0}

theorem separates_of_recommended {sha3 : Bytes → Bytes}
    {scenario : ContainmentRecommendationV0} (recommended : Recommended sha3 graph scenario) :
    Separates graph scenario := by
  obtain ⟨plan, maxHops, radius, weights, policy, derived, optimized⟩ := recommended
  obtain ⟨-, -, -, safe, inside, boundary⟩ := deriveBlastRadiusV0_eq_ok derived
  unfold optimizeContainmentV0 at optimized
  iterate 9 obtain ⟨_, -, optimized⟩ := bind_eq_ok optimized
  obtain ⟨lost, -, optimized⟩ := bind_eq_ok optimized
  obtain ⟨kept, -, optimized⟩ := bind_eq_ok optimized
  obtain ⟨radiusDigest, -, optimized⟩ := bind_eq_ok optimized
  obtain ⟨budget, -, optimized⟩ := bind_eq_ok optimized
  obtain ⟨ordered, -, optimized⟩ := bind_eq_ok optimized
  obtain ⟨texts, -, optimized⟩ := bind_eq_ok optimized
  obtain ⟨valueBytes, -, optimized⟩ := bind_eq_ok optimized
  obtain ⟨costBytes, -, optimized⟩ := bind_eq_ok optimized
  cases optimized
  refine ⟨rfl, rfl, fun root member => inside (mem_sortedRoots.mp member), fun pair member => ?_,
    fun pair member same => ?_, fun pair isEdge first known second => ?_,
    fun pair isEdge second known first => ?_⟩
  · rcases ((boundary pair).mp (mem_sortedPairs.mp member)).2 with ⟨source, target⟩ |
      ⟨source, target⟩
    · exact ⟨inside source, ((safe _).mp target).1⟩
    · exact ⟨((safe _).mp source).1, inside target⟩
  · rcases ((boundary pair).mp (mem_sortedPairs.mp member)).2 with ⟨source, target⟩ |
      ⟨source, target⟩
    · exact ((safe _).mp target).2 (same ▸ source)
    · exact ((safe _).mp source).2 (same ▸ target)
  · rw [mem_sortedRoots] at first second
    exact mem_sortedPairs.mpr
      ((boundary pair).mpr ⟨isEdge, .inl ⟨first, (safe _).mpr ⟨known, second⟩⟩⟩)
  · rw [mem_sortedRoots] at first second
    exact mem_sortedPairs.mpr
      ((boundary pair).mpr ⟨isEdge, .inr ⟨(safe _).mpr ⟨known, first⟩, second⟩⟩)

/-! ## What is merged -/

/-- The digests are of their size and distinct, after some digests. -/
def checkDigests : List Bytes → List Bytes → Contained Unit
  | _, [] => .ok ()
  | before, digest :: digests => do
    let digest ← containedDigest .scenarios digest "recommendation_digest"
    raiseIf (digest ∈ before)
      (ContainmentFault.scenarios "duplicate containment scenario forbidden")
    checkDigests (before ++ [digest]) digests

/-- Some scenarios more. -/
def Merged.extend (merged : Merged) (scenarios : List ContainmentRecommendationV0) : Merged where
  isolated := merged.isolated ++ scenarios.flatMap ContainmentRecommendationV0.isolatedRoots
  cuts := merged.cuts ++ scenarios.flatMap ContainmentRecommendationV0.cutEdges
  digests := merged.digests ++ scenarios.map recommendationDigest
  feasible := merged.feasible && scenarios.all ContainmentRecommendationV0.feasible

theorem foldlM_mergeScenario {scenarios : List ContainmentRecommendationV0}
    (separate : ∀ scenario ∈ scenarios, Separates graph scenario) (merged : Merged) :
    scenarios.foldlM (mergeScenario graph) merged = (checkDigests merged.digests
        (scenarios.map recommendationDigest)).map
          fun _ => merged.extend scenarios := by
  induction scenarios generalizing merged with
  | nil =>
    unfold Merged.extend
    simp only [List.flatMap_nil, map_nil, append_nil, List.all_nil, Bool.and_true]
    rfl
  | cons scenario scenarios ih =>
    obtain ⟨first, rest⟩ := forall_mem_cons.mp separate
    have cut : ¬ ∃ pair ∈ scenario.cutEdges, BadCut graph.roots pair := by
      rintro ⟨pair, member, bad⟩
      have known := first.known pair member
      exact bad.elim (fun unknown => unknown known.1)
        fun others => others.elim (fun unknown => unknown known.2) (first.apart pair member)
    rw [foldlM_cons, map_cons]
    unfold mergeScenario checkDigests
    rw [bind_raiseIf (ne_true_of_eq_false first.authority),
      bind_raiseIf (not_not.mpr first.graphDigest)]
    by_cases sized : scenario.recommendationDigest.length = 32
    · have passed : containedDigest .scenarios scenario.recommendationDigest
          "recommendation_digest" = .ok scenario.recommendationDigest :=
        bind_raiseIf (not_not.mpr sized)
      rw [bind_of_ok passed, bind_of_ok passed]
      by_cases twice : scenario.recommendationDigest ∈ merged.digests
      · unfold raiseIf
        rw [if_pos twice]
        rfl
      · rw [bind_raiseIf twice, bind_raiseIf twice, bind_raiseIf (not_not.mpr first.isolated),
          bind_raiseIf cut]
        refine (ih rest _).trans ?_
        unfold Merged.extend
        simp only [flatMap_cons, map_cons, append_assoc, List.all_cons,
          Bool.and_assoc, cons_append, nil_append]
    · have stopped : containedDigest .scenarios scenario.recommendationDigest
          "recommendation_digest" =
            .error (.scenarios "recommendation_digest must be exactly 32 bytes") := by
        unfold containedDigest raiseIf
        rw [if_pos sized]
        rfl
      rw [stopped]
      rfl

theorem checkDigests_nodup {before digests : List Bytes} {u : Unit}
    (passed : checkDigests before digests = .ok u) : digests.Nodup ∧ ∀ d ∈ digests, d ∉ before := by
  induction digests generalizing before with
  | nil => exact ⟨nodup_nil, forall_mem_nil _⟩
  | cons digest digests ih =>
    unfold checkDigests at passed
    obtain ⟨_, sized, passed⟩ := bind_eq_ok passed
    unfold containedDigest at sized
    obtain ⟨_, -, sized⟩ := bind_eq_ok sized
    cases sized
    obtain ⟨_, fresh, passed⟩ := bind_eq_ok passed
    obtain ⟨distinct, apart⟩ := ih passed
    refine ⟨nodup_cons.mpr ⟨fun again => ?_, distinct⟩,
      forall_mem_cons.mpr ⟨raiseIf_eq_ok fresh, fun d member earlier => ?_⟩⟩
    · exact apart _ again (mem_append_right _ mem_cons_self)
    · exact apart d member (mem_append_left _ earlier)

theorem byteOrder_inj {first second : Bytes} (same : byteOrder first = byteOrder second) :
    first = second :=
  List.map_injective_iff.mpr (fun _ _ => UInt8.toNat_inj.mp) same

section Combined

variable {sha3 : Bytes → Bytes} {graph : LibraryTrustGraphV0}
  {scenarios : List ContainmentRecommendationV0}

theorem combineContainmentScenariosV0_eq_ok
    (separate : ∀ scenario ∈ scenarios, Separates graph scenario) {result : CombinedContainmentV0}
    (ran : combineContainmentScenariosV0 sha3 graph scenarios = .ok result) :
    result = combined sha3 graph (Merged.start.extend (sortByKey scenarioKey scenarios)) := by
  unfold combineContainmentScenariosV0 at ran
  obtain ⟨_, -, ran⟩ := bind_eq_ok ran
  obtain ⟨_, -, ran⟩ := bind_eq_ok ran
  obtain ⟨_, -, ran⟩ := bind_eq_ok ran
  obtain ⟨merged, folded, ran⟩ := bind_eq_ok ran
  cases ran
  have sorted : ∀ scenario ∈ sortByKey scenarioKey scenarios, Separates graph scenario :=
    fun scenario member => separate scenario ((sortByKey_perm scenarioKey scenarios).subset member)
  rw [foldlM_mergeScenario sorted] at folded
  obtain ⟨-, -, same⟩ := map_eq_ok folded
  rw [same]

theorem mem_isolated {root : String} :
    root ∈ (Merged.start.extend (sortByKey scenarioKey scenarios)).isolated ↔
      ∃ scenario ∈ scenarios, root ∈ scenario.isolatedRoots := by
  unfold Merged.extend Merged.start
  dsimp only
  rw [nil_append, mem_flatMap]
  exact exists_congr fun scenario =>
    and_congr_left fun _ => (sortByKey_perm scenarioKey scenarios).mem_iff

theorem mem_cuts {pair : String × String} :
    pair ∈ (Merged.start.extend (sortByKey scenarioKey scenarios)).cuts ↔
      ∃ scenario ∈ scenarios, pair ∈ scenario.cutEdges := by
  unfold Merged.extend Merged.start
  dsimp only
  rw [nil_append, mem_flatMap]
  exact exists_congr fun scenario =>
    and_congr_left fun _ => (sortByKey_perm scenarioKey scenarios).mem_iff

theorem mem_preserved {root : String} (preserved : root ∈
      (combined sha3 graph (Merged.start.extend (sortByKey scenarioKey scenarios))).preservedRoots) :
    root ∈ graph.roots ∧ ∀ scenario ∈ scenarios, root ∉ scenario.isolatedRoots := by
  unfold combined at preserved
  dsimp only at preserved
  rw [mem_sortedRoots] at preserved
  split at preserved
  · obtain ⟨known, free⟩ := mem_filter.mp preserved
    refine ⟨known, fun scenario member isolated => ?_⟩
    exact of_decide_eq_true free (mem_isolated.mpr ⟨scenario, member, isolated⟩)
  · cases preserved

theorem combine_perm {scenarios' : List ContainmentRecommendationV0}
    (separate : ∀ scenario ∈ scenarios, Separates graph scenario)
    (perm : scenarios.Perm scenarios') :
    combineContainmentScenariosV0 sha3 graph scenarios =
      combineContainmentScenariosV0 sha3 graph scenarios' := by
  have sorted : ∀ scenario ∈ sortByKey scenarioKey scenarios, Separates graph scenario :=
    fun scenario member => separate scenario ((sortByKey_perm scenarioKey scenarios).subset member)
  have sorted' : ∀ scenario ∈ sortByKey scenarioKey scenarios', Separates graph scenario :=
    fun scenario member => separate scenario
      (perm.symm.subset ((sortByKey_perm scenarioKey scenarios').subset member))
  -- In order, the two lists have the same digests.
  have digests : (sortByKey scenarioKey scenarios).map recommendationDigest =
      (sortByKey scenarioKey scenarios').map
        recommendationDigest := by
    have one : ∀ list : List ContainmentRecommendationV0, (sortByKey scenarioKey list).map
        recommendationDigest = sortByKey byteOrder (list.map recommendationDigest) :=
      fun list => map_sortByKey fun _ _ => rfl
    rw [one, one]
    exact sortByKey_eq_of_perm (perm.map _) fun _ _ _ _ => byteOrder_inj
  have folded : (sortByKey scenarioKey scenarios).foldlM (mergeScenario graph) Merged.start =
      (sortByKey scenarioKey scenarios').foldlM (mergeScenario graph) Merged.start := by
    rw [foldlM_mergeScenario sorted, foldlM_mergeScenario sorted', digests]
    cases checked : checkDigests Merged.start.digests ((sortByKey scenarioKey scenarios').map
        recommendationDigest) with
    | error fault => rfl
    | ok u =>
      have distinct := (checkDigests_nodup checked).1
      rw [← digests] at distinct
      have same : sortByKey scenarioKey scenarios = sortByKey scenarioKey scenarios' := by
        refine sortByKey_eq_of_perm perm fun a first b second keys => ?_
        exact inj_on_of_nodup_map distinct
          ((sortByKey_perm scenarioKey scenarios).mem_iff.mpr first)
          ((sortByKey_perm scenarioKey scenarios).mem_iff.mpr second) (byteOrder_inj keys)
      rw [same]
  have empty : scenarios = [] ↔ scenarios' = [] := by
    rw [← length_eq_zero_iff, ← length_eq_zero_iff, perm.length_eq]
  unfold combineContainmentScenariosV0
  rw [folded]
  simp only [empty]

end Combined

/-- What the radii and their merged recommendations say of a graph. -/
structure ContainmentSound (sha3 : Bytes → Bytes) (graph : LibraryTrustGraphV0) : Prop where
  affected : ∀ plan maxHops radius, deriveBlastRadiusV0 sha3 graph plan maxHops = .ok radius →
    ∀ root, root ∈ radius.affectedRoots ↔ WithinHops graph plan.quarantinedRoots maxHops root
  boundary : ∀ plan maxHops radius, deriveBlastRadiusV0 sha3 graph plan maxHops = .ok radius →
    ∀ pair, pair ∈ radius.boundaryCutEdges ↔ pair ∈ graph.pairs ∧
      ((pair.1 ∈ radius.affectedRoots ∧ pair.2 ∈ radius.safeRoots) ∨
        (pair.1 ∈ radius.safeRoots ∧ pair.2 ∈ radius.affectedRoots))
  cut : ∀ scenarios result, (∀ scenario ∈ scenarios, Recommended sha3 graph scenario) →
    combineContainmentScenariosV0 sha3 graph scenarios = .ok result → ∀ pair ∈ graph.pairs,
      ((pair.1 ∈ result.isolatedRoots ∧ pair.2 ∈ result.preservedRoots) ∨
        (pair.1 ∈ result.preservedRoots ∧ pair.2 ∈ result.isolatedRoots)) → pair ∈ result.cutEdges
  disjoint : ∀ scenarios result, (∀ scenario ∈ scenarios, Recommended sha3 graph scenario) →
    combineContainmentScenariosV0 sha3 graph scenarios = .ok result →
      ∀ root ∈ result.isolatedRoots, root ∉ result.preservedRoots
  preserved : ∀ scenarios result, (∀ scenario ∈ scenarios, Recommended sha3 graph scenario) →
    combineContainmentScenariosV0 sha3 graph scenarios = .ok result → result.feasible = true →
      ∀ root ∈ graph.roots, (∀ scenario ∈ scenarios, root ∉ scenario.isolatedRoots) →
        root ∈ result.preservedRoots
  order : ∀ scenarios scenarios', (∀ scenario ∈ scenarios, Recommended sha3 graph scenario) →
    scenarios.Perm scenarios' → combineContainmentScenariosV0 sha3 graph scenarios =
      combineContainmentScenariosV0 sha3 graph scenarios'

end Koschei.Recovery
