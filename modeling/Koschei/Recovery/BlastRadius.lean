import Koschei.Lib.Spreading
import Koschei.Recovery.Priorities

/-!
# The blast radius of a compromise

`library_blast_radius_v0.py` takes the roots that a recovery plan quarantines and
spreads from them along the composition edges of a trust graph, in both
directions, level by level and as far as a limit of hops. The edges between what
is affected and what is safe are the ones to cut.
-/

namespace Koschei.Recovery

open Lib

/-! ## Records -/

/-- What can be raised: the errors of the modules, that of a look up, or one of the functions they
share. -/
inductive ContainmentFault where
  | blastRadius (message : String)
  | optimizer (message : String)
  | scenarios (message : String)
  | key
  | shared (fault : Fault)
  deriving DecidableEq

abbrev Contained (α : Type) : Type := Except ContainmentFault α

def raised {α : Type} : Guarded α → Contained α := Except.mapError .shared

/-- `_d32`, with the error of its module. -/
def containedDigest (fault : String → ContainmentFault) (value : Bytes) (name : String) :
    Contained Bytes := do
  raiseIf (value.length ≠ 32) (fault (name ++ " must be exactly 32 bytes"))
  .ok value

/-- The fields of `RecoveryPlanV0` that are read. -/
structure RecoveryPlanV0 where
  graphDigest : Bytes
  quarantinedRoots : List String
  planDigest : Bytes
  authority : Bool
  deriving DecidableEq

/-- `BlastRadiusV0`. -/
structure BlastRadiusV0 where
  graphDigest : Bytes
  recoveryPlanDigest : Bytes
  compromisedRoots : List String
  affectedRoots : List String
  internalEdges : List (String × String)
  boundaryCutEdges : List (String × String)
  safeRoots : List String
  radiusDigest : Bytes
  authority : Bool
  deriving DecidableEq

/-! ## Sets in order -/

/-- `sorted` of a set of roots. -/
def sortedRoots (roots : List String) : List String := sortByKey id roots.dedup

/-- `sorted` of a set of edges. -/
def sortedPairs (pairs : List (String × String)) : List (String × String) :=
  sortByKey (fun pair : String × String => toLex pair) pairs.dedup

@[simp]
theorem mem_sortedRoots {roots : List String} {root : String} :
    root ∈ sortedRoots roots ↔ root ∈ roots := by
  unfold sortedRoots
  rw [(sortByKey_perm id roots.dedup).mem_iff, mem_dedup]

@[simp]
theorem mem_sortedPairs {pairs : List (String × String)} {pair : String × String} :
    pair ∈ sortedPairs pairs ↔ pair ∈ pairs := by
  unfold sortedPairs
  rw [(sortByKey_perm _ pairs.dedup).mem_iff, mem_dedup]

/-! ## The graph as links -/

namespace LibraryTrustGraphV0

/-- The identities of the nodes. -/
def roots (graph : LibraryTrustGraphV0) : List String := graph.nodes.map TrustGraphNodeV0.rootId

/-- The ends of the edges. -/
def pairs (graph : LibraryTrustGraphV0) : List (String × String) :=
  graph.edges.map fun edge => (edge.sourceRootId, edge.targetRootId)

/-- `adjacency`: an edge with an unknown end is a key that is not there. -/
def links (graph : LibraryTrustGraphV0) : Contained (Links String) :=
  if within : ∀ pair ∈ graph.pairs, pair.1 ∈ graph.roots ∧ pair.2 ∈ graph.roots then
    .ok ⟨graph.roots, graph.pairs, within⟩
  else .error .key

end LibraryTrustGraphV0

/-! ## The radius -/

def blastRadiusContext : Bytes := encode "koschei.library-blast-radius/v0\x00"

/-- What a digest says of a root. -/
def rootText (mark : String) (root : String) : Bytes := encode mark ++ [0] ++ encode root ++ [0]

/-- What a digest says of an edge. -/
def pairText (mark : String) (pair : String × String) : Bytes :=
  encode mark ++ [0] ++ encode pair.1 ++ [0] ++ encode pair.2 ++ [0]

/-- The limit of hops as the digest says it. -/
def hopBytes : Option Int → Contained Bytes
  | none => .ok (replicate 8 255)
  | some hops => raised (intBytes 8 hops)

section Radius

variable (sha3 : Bytes → Bytes)

/-- `derive_blast_radius_v0`. -/
def deriveBlastRadiusV0 (graph : LibraryTrustGraphV0) (plan : RecoveryPlanV0)
    (maxHops : Option Int) : Contained BlastRadiusV0 := do
  let verified ← raised (verifyLibraryTrustGraphV0 sha3 graph)
  raiseIf (¬ verified) (ContainmentFault.blastRadius "verified canonical trust graph required")
  raiseIf plan.authority (ContainmentFault.blastRadius "authority-free recovery plan required")
  let planned ← containedDigest .blastRadius plan.graphDigest "plan.graph_digest"
  raiseIf (planned ≠ graph.graphDigest)
    (ContainmentFault.blastRadius "recovery plan/graph mismatch")
  raiseIf (∃ hops ∈ maxHops, hops < 0)
    (ContainmentFault.blastRadius "max_hops must be non-negative or None")
  raiseIf (plan.quarantinedRoots = [] ∨ ¬ plan.quarantinedRoots ⊆ graph.roots)
    (ContainmentFault.blastRadius "recovery plan contains invalid quarantined roots")
  let links ← graph.links
  let affected := links.spread (maxHops.map Int.toNat) 0 plan.quarantinedRoots
    plan.quarantinedRoots
  let internal := sortedPairs
    (graph.pairs.filter fun pair => decide (pair.1 ∈ affected) && decide (pair.2 ∈ affected))
  let boundary := sortedPairs
    (graph.pairs.filter fun pair => decide (pair.1 ∈ affected) != decide (pair.2 ∈ affected))
  let safe := graph.roots.filter fun root => root ∉ affected
  let hops ← hopBytes maxHops
  .ok {
    graphDigest := graph.graphDigest
    recoveryPlanDigest := plan.planDigest
    compromisedRoots := sortedRoots plan.quarantinedRoots
    affectedRoots := sortedRoots affected
    internalEdges := internal
    boundaryCutEdges := boundary
    safeRoots := sortedRoots safe
    radiusDigest := sha3 (blastRadiusContext ++ graph.graphDigest ++ plan.planDigest ++ hops ++
      (sortedRoots plan.quarantinedRoots).flatMap (rootText "C") ++
      (sortedRoots affected).flatMap (rootText "A") ++ internal.flatMap (pairText "I") ++
      boundary.flatMap (pairText "B") ++ (sortedRoots safe).flatMap (rootText "S"))
    authority := false }

end Radius

/-! ## Distances -/

/-- The undirected graph of the composition edges. -/
def LibraryTrustGraphV0.composition (graph : LibraryTrustGraphV0) : SimpleGraph String :=
  SimpleGraph.fromRel fun a b => (a, b) ∈ graph.pairs

/-- The root is joined to a quarantined root by a path within the limit of hops. -/
def WithinHops (graph : LibraryTrustGraphV0) (quarantined : List String) (maxHops : Option Int)
    (root : String) : Prop :=
  ∃ first ∈ quarantined, ∃ walk : graph.composition.Walk first root,
    ∀ hops ∈ maxHops, (walk.length : Int) ≤ hops

/-- What is known of the radius of a plan. -/
structure RadiusOf (graph : LibraryTrustGraphV0) (plan : RecoveryPlanV0) (maxHops : Option Int)
    (radius : BlastRadiusV0) : Prop where
  authority : radius.authority = false
  graphDigest : radius.graphDigest = graph.graphDigest
  affected : ∀ root, root ∈ radius.affectedRoots ↔
    WithinHops graph plan.quarantinedRoots maxHops root
  safe : ∀ root, root ∈ radius.safeRoots ↔ root ∈ graph.roots ∧ root ∉ radius.affectedRoots
  inside : radius.affectedRoots ⊆ graph.roots
  boundary : ∀ pair, pair ∈ radius.boundaryCutEdges ↔ pair ∈ graph.pairs ∧
    ((pair.1 ∈ radius.affectedRoots ∧ pair.2 ∈ radius.safeRoots) ∨
      (pair.1 ∈ radius.safeRoots ∧ pair.2 ∈ radius.affectedRoots))

variable {graph : LibraryTrustGraphV0} {links : Links String}

theorem links_eq_ok
    (built : graph.links = .ok links) : links.nodes = graph.roots ∧ links.pairs = graph.pairs := by
  unfold LibraryTrustGraphV0.links at built
  split at built
  · cases built
    exact ⟨rfl, rfl⟩
  · cases built

variable {maxHops : Option Int}

theorem mem_spread_iff (built : graph.links = .ok links) {quarantined : List String}
    (nonnegative : ∀ hops ∈ maxHops, 0 ≤ hops) (root : String) :
    root ∈ links.spread (maxHops.map Int.toNat) 0 quarantined quarantined ↔
      WithinHops graph quarantined maxHops root := by
  have same : links.graph = graph.composition := by
    unfold Links.graph LibraryTrustGraphV0.composition
    rw [(links_eq_ok built).2]
  rw [Links.mem_spread_starts]
  unfold WithinHops
  rw [← same]
  cases maxHops with
  | none =>
    constructor
    · rintro ⟨hops, near⟩
      obtain ⟨first, member, walk, -⟩ := near.walk
      exact ⟨first, member, walk, nofun⟩
    · rintro ⟨first, member, walk, -⟩
      exact ⟨walk.length, Links.near_iff.mpr ⟨first, member, walk, Nat.le_refl _⟩⟩
  | some bound =>
    have positive := nonnegative bound rfl
    refine Links.near_iff.trans (exists_congr fun first => and_congr_right fun _ =>
      exists_congr fun walk => ?_)
    constructor
    · rintro short hops isBound
      cases isBound
      omega
    · intro short
      have bounded := short bound rfl
      omega

theorem deriveBlastRadiusV0_eq_ok {sha3 : Bytes → Bytes}
    {plan : RecoveryPlanV0} {radius : BlastRadiusV0}
    (derived : deriveBlastRadiusV0 sha3 graph plan maxHops = .ok radius) :
    RadiusOf graph plan maxHops radius := by
  unfold deriveBlastRadiusV0 at derived
  obtain ⟨verified, -, derived⟩ := bind_eq_ok derived
  iterate 4 obtain ⟨_, -, derived⟩ := bind_eq_ok derived
  obtain ⟨_, limit, derived⟩ := bind_eq_ok derived
  obtain ⟨_, starts, derived⟩ := bind_eq_ok derived
  obtain ⟨links, built, derived⟩ := bind_eq_ok derived
  obtain ⟨hops, -, derived⟩ := bind_eq_ok derived
  cases derived
  have nonnegative : ∀ hops ∈ maxHops, 0 ≤ hops := by
    intro hops isLimit
    by_contra negative
    exact raiseIf_eq_ok limit ⟨hops, isLimit, not_le.mp negative⟩
  have quarantined : plan.quarantinedRoots ⊆ graph.roots :=
    not_not.mp (not_or.mp (raiseIf_eq_ok starts)).2
  have reached : ∀ root, root ∈ links.spread (maxHops.map Int.toNat) 0 plan.quarantinedRoots
      plan.quarantinedRoots ↔ WithinHops graph plan.quarantinedRoots maxHops root :=
    mem_spread_iff built nonnegative
  have inside : ∀ root, root ∈ links.spread (maxHops.map Int.toNat) 0 plan.quarantinedRoots
      plan.quarantinedRoots → root ∈ graph.roots := by
    intro root member
    rw [Links.mem_spread_starts] at member
    obtain ⟨bound, near⟩ : ∃ bound, Links.Near links plan.quarantinedRoots bound root := by
      cases limit' : maxHops.map Int.toNat with
      | none =>
        rw [limit'] at member
        exact member
      | some bound =>
        rw [limit'] at member
        exact ⟨bound, member⟩
    cases near with
    | start member => exact quarantined member
    | step _ linked => exact (links_eq_ok built).1 ▸ Links.mem_nodes_of_linked linked
  refine ⟨rfl, rfl, fun root => ?_, fun root => ?_, fun root member => ?_, fun pair => ?_⟩
  · rw [mem_sortedRoots]
    exact reached root
  · rw [mem_sortedRoots, mem_sortedRoots, mem_filter, decide_eq_true_eq]
  · exact inside root (mem_sortedRoots.mp member)
  · simp only [mem_sortedPairs, mem_sortedRoots, mem_filter, decide_eq_true_eq]
    refine and_congr_right fun isEdge => ?_
    obtain ⟨source, target⟩ : pair.1 ∈ graph.roots ∧ pair.2 ∈ graph.roots := by
      rw [← (links_eq_ok built).1]
      exact links.within pair ((links_eq_ok built).2 ▸ isEdge)
    by_cases first : pair.1 ∈ links.spread (maxHops.map Int.toNat) 0 plan.quarantinedRoots
        plan.quarantinedRoots <;>
      by_cases second : pair.2 ∈ links.spread (maxHops.map Int.toNat) 0 plan.quarantinedRoots
        plan.quarantinedRoots <;>
      simp [first, second, source, target]

end Koschei.Recovery
