import Koschei.Recovery.Histories
import Koschei.Lib.Dictionary
import Koschei.Lib.Precedence
import Mathlib.Data.String.Basic

/-!
# Priorities of recovery steps

`library_policy_conflict_resolution_v0.py` puts the steps of a recovery in order:
a step comes after the steps it depends on, and of the steps that are ready the
one of the highest priority comes first. Then the steps of the lowest priority on
roots that are not isolated are moved to the end, in the order of their names.

A step that is moved to the end comes after the steps that depend on it and are
not moved.
-/

namespace Koschei.Recovery

open Lib

/-! ## The trust graph -/

/-- `TrustGraphNodeV0`. -/
structure TrustGraphNodeV0 where
  rootId : String
  generation : Int
  rootBindingDigest : Bytes
  technologyDigest : Bytes
  deriving DecidableEq

/-- `TrustGraphEdgeV0`. -/
structure TrustGraphEdgeV0 where
  sourceRootId : String
  targetRootId : String
  relationDigest : Bytes
  evidenceDigest : Bytes
  deriving DecidableEq

/-- `LibraryTrustGraphV0`. -/
structure LibraryTrustGraphV0 where
  nodes : List TrustGraphNodeV0
  edges : List TrustGraphEdgeV0
  graphDigest : Bytes
  authority : Bool
  deriving DecidableEq

/-- What nodes are sorted by. -/
def nodeKey (node : TrustGraphNodeV0) : String ×ₗ Int ×ₗ List Nat ×ₗ List Nat :=
  toLex (node.rootId, toLex (node.generation,
    toLex (byteOrder node.rootBindingDigest, byteOrder node.technologyDigest)))

/-- What edges are sorted by. -/
def edgeKey (edge : TrustGraphEdgeV0) : String ×ₗ String ×ₗ List Nat ×ₗ List Nat :=
  toLex (edge.sourceRootId, toLex (edge.targetRootId,
    toLex (byteOrder edge.relationDigest, byteOrder edge.evidenceDigest)))

/-- The checks of the nodes, after some nodes. -/
def checkNodes : List TrustGraphNodeV0 → List TrustGraphNodeV0 → Guarded Unit
  | _, [] => .ok ()
  | before, node :: nodes => do
    raiseIf (node.generation < 1) (Fault.graph "invalid graph node")
    let _ ← digest32 .graph node.rootBindingDigest "root_binding_digest"
    let _ ← digest32 .graph node.technologyDigest "technology_digest"
    raiseIf (node ∈ before) (Fault.graph "duplicate graph node forbidden")
    checkNodes (before ++ [node]) nodes

/-- The checks of the edges between known roots, after some edges. -/
def checkEdges (known : List String) : List TrustGraphEdgeV0 → List TrustGraphEdgeV0 → Guarded Unit
  | _, [] => .ok ()
  | before, edge :: edges => do
    raiseIf (edge.sourceRootId ∉ known ∨ edge.targetRootId ∉ known ∨
        edge.sourceRootId = edge.targetRootId)
      (Fault.graph "composition edge must bind distinct known roots")
    let _ ← digest32 .graph edge.relationDigest "relation_digest"
    let _ ← digest32 .graph edge.evidenceDigest "evidence_digest"
    raiseIf (edge ∈ before) (Fault.graph "duplicate composition edge forbidden")
    checkEdges known (before ++ [edge]) edges

def graphContext : Bytes := encode "koschei.library-trust-graph/v0\x00"

/-- What the digest of a graph says of a node. -/
def nodeText (node : TrustGraphNodeV0) : Guarded Bytes := do
  let generation ← intBytes 8 node.generation
  .ok (encode "N\x00" ++ encode node.rootId ++ [0] ++ generation ++ node.rootBindingDigest ++
    node.technologyDigest)

/-- What the digest of a graph says of an edge. -/
def edgeText (edge : TrustGraphEdgeV0) : Bytes :=
  encode "E\x00" ++ encode edge.sourceRootId ++ [0] ++ encode edge.targetRootId ++ [0] ++
    edge.relationDigest ++ edge.evidenceDigest

section Hashes

variable (sha3 : Bytes → Bytes)

/-- `build_library_trust_graph_v0`. -/
def buildLibraryTrustGraphV0 (nodes : List TrustGraphNodeV0) (edges : List TrustGraphEdgeV0) :
    Guarded LibraryTrustGraphV0 := do
  raiseIf (nodes = []) (Fault.graph "non-empty immutable node tuple required")
  let identities := nodes.map TrustGraphNodeV0.rootId
  raiseIf ("" ∈ identities) (Fault.graph "invalid root identity")
  raiseIf (¬ identities.Nodup) (Fault.graph "duplicate root identity forbidden")
  checkNodes [] nodes
  checkEdges identities [] edges
  let texts ← (sortByKey nodeKey nodes).mapM nodeText
  .ok {
    nodes := nodes
    edges := edges
    graphDigest := sha3 (graphContext ++ texts.flatten ++ (sortByKey edgeKey edges).flatMap edgeText)
    authority := false }

/-- `verify_library_trust_graph_v0`: other faults than those of its module are raised. -/
def verifyLibraryTrustGraphV0 (graph : LibraryTrustGraphV0) : Guarded Bool :=
  if graph.authority then .ok false
  else match buildLibraryTrustGraphV0 sha3 graph.nodes graph.edges with
    | .ok rebuilt => .ok (decide (rebuilt.graphDigest = graph.graphDigest))
    | .error (.graph _) => .ok false
    | .error fault => .error fault

/-- A graph without authority that is built from its nodes and its edges is verified. -/
theorem verify_of_built {sha3 : Bytes → Bytes} {graph : LibraryTrustGraphV0}
    (free : graph.authority = false)
    (built : buildLibraryTrustGraphV0 sha3 graph.nodes graph.edges = .ok graph) :
    verifyLibraryTrustGraphV0 sha3 graph = .ok true := by
  unfold verifyLibraryTrustGraphV0
  rw [if_neg (ne_true_of_eq_false free), built]
  exact congrArg Except.ok (decide_eq_true rfl)

end Hashes

/-! ## Steps and dependencies -/

/-- `RecoveryPriority`. -/
inductive RecoveryPriority where
  | critical
  | high
  | normal
  | low
  deriving DecidableEq

def RecoveryPriority.value : RecoveryPriority → String
  | .critical => "critical"
  | .high => "high"
  | .normal => "normal"
  | .low => "low"

/-- `_priority_rank`. -/
def RecoveryPriority.rank : RecoveryPriority → Nat
  | .critical => 0
  | .high => 1
  | .normal => 2
  | .low => 3

/-- `RecoveryStepV0`. -/
structure RecoveryStepV0 where
  stepId : String
  rootId : String
  actionDigest : Bytes
  evidenceDigest : Bytes
  priority : RecoveryPriority
  destructive : Bool
  deriving DecidableEq

/-- `RecoveryDependencyV0`. -/
structure RecoveryDependencyV0 where
  beforeStepId : String
  afterStepId : String
  evidenceDigest : Bytes
  deriving DecidableEq

/-- The fields of `MultiScenarioContainmentV0` that are read. -/
structure MultiScenarioContainmentV0 where
  graphDigest : Bytes
  isolatedRoots : List String
  combinedDigest : Bytes
  feasible : Bool
  authority : Bool
  deriving DecidableEq

def RecoveryDependencyV0.edge (dependency : RecoveryDependencyV0) : String × String :=
  (dependency.beforeStepId, dependency.afterStepId)

open RecoveryStepV0 (stepId)
open RecoveryDependencyV0 (edge)

def RecoveryStepV0.actionKey (step : RecoveryStepV0) : String × Bytes :=
  (step.rootId, step.actionDigest)

/-- The checks of the steps on known roots, after some steps. -/
def checkSteps (known : List String) : List RecoveryStepV0 → List RecoveryStepV0 → Guarded Unit
  | _, [] => .ok ()
  | before, step :: steps => do
    raiseIf (step.stepId = "" ∨ 96 < step.stepId.length) (Fault.priorities "invalid recovery step")
    raiseIf (step.stepId ∈ before.map stepId)
      (Fault.priorities "duplicate recovery step id forbidden")
    raiseIf (step.rootId ∉ known) (Fault.priorities "recovery step references unknown root")
    let _ ← digest32 .priorities step.actionDigest "action_digest"
    let evidence ← digest32 .priorities step.evidenceDigest "evidence_digest"
    raiseIf (evidence = zeros) (Fault.priorities "recovery step evidence cannot be empty")
    raiseIf (step.actionKey ∈ before.map RecoveryStepV0.actionKey)
      (Fault.priorities "duplicate recovery action forbidden")
    checkSteps known (before ++ [step]) steps

/-- The checks of the dependencies between known steps, after some dependencies. -/
def checkDependencies (known : List String) : List RecoveryDependencyV0 →
    List RecoveryDependencyV0 → Guarded Unit
  | _, [] => .ok ()
  | before, dependency :: dependencies => do
    raiseIf (dependency.beforeStepId ∉ known ∨ dependency.afterStepId ∉ known ∨
        dependency.beforeStepId = dependency.afterStepId)
      (Fault.priorities "dependency must bind distinct known steps")
    let evidence ← digest32 .priorities dependency.evidenceDigest "dependency.evidence_digest"
    raiseIf (evidence = zeros) (Fault.priorities "dependency evidence cannot be empty")
    raiseIf (dependency.edge ∈ before.map edge)
      (Fault.priorities "duplicate recovery dependency forbidden")
    checkDependencies known (before ++ [dependency]) dependencies

/-! ## The order -/

/-- `by_id[sid]`. -/
def stepOf (steps : List RecoveryStepV0) (sid : String) : Option RecoveryStepV0 :=
  steps.find? fun step => decide (step.stepId = sid)

def readyKey (steps : List RecoveryStepV0) (sid : String) : Nat ×ₗ Bool ×ₗ String :=
  match stepOf steps sid with
  | some step => toLex (step.priority.rank, toLex (step.destructive, sid))
  | none => toLex (0, toLex (false, sid))

/-- `sorted(outgoing[sid])`. -/
def targets (edges : List (String × String)) (sid : String) : List String :=
  sortByKey id ((edges.filter fun edge => decide (edge.1 = sid)).map snd)

/-- A step of the lowest priority on a root that is not isolated. -/
def RecoveryStepV0.isDeferred (containment : MultiScenarioContainmentV0) (step : RecoveryStepV0) :
    Bool :=
  decide (step.rootId ∉ containment.isolatedRoots ∧ step.priority = .low)

def deferredSteps (containment : MultiScenarioContainmentV0) (steps : List RecoveryStepV0) :
    List String :=
  sortByKey id ((steps.filter (RecoveryStepV0.isDeferred containment)).map stepId)

/-- The order of the steps before some are deferred. -/
def orderedSteps (steps : List RecoveryStepV0) (dependencies : List RecoveryDependencyV0) :
    List String :=
  let edges := dependencies.map edge
  kahn (readyKey steps) (steps.map stepId) edges (targets edges)

def prioritiesContext : Bytes := encode "koschei.library-policy-conflict-resolution/v0\x00"

/-- What the digest of a plan says of a step. -/
def stepText (step : RecoveryStepV0) : Bytes :=
  encode "S\x00" ++ encode step.stepId ++ [0] ++ encode step.rootId ++ [0] ++ step.actionDigest ++
    step.evidenceDigest ++ encode step.priority.value ++ [if step.destructive then 1 else 0]

/-- What the digest of a plan says of a dependency. -/
def dependencyText (edge : String × String) : Bytes :=
  encode "D\x00" ++ encode edge.1 ++ [0] ++ encode edge.2 ++ [0]

/-- `sorted(edges)`. -/
def sortedEdges (dependencies : List RecoveryDependencyV0) : List (String × String) :=
  sortByKey (fun edge : String × String => toLex edge) (dependencies.map edge)

section Hashes

variable (sha3 : Bytes → Bytes)

/-- The plan of inputs that passed the checks. -/
def recoveryPlan (graph : LibraryTrustGraphV0) (containment : MultiScenarioContainmentV0)
    (steps : List RecoveryStepV0) (dependencies : List RecoveryDependencyV0) :
    RecoveryPriorityPlanV0 :=
  let deferred := deferredSteps containment steps
  let finalOrder :=
    (orderedSteps steps dependencies).filter (fun sid => !decide (sid ∈ deferred)) ++ deferred
  { graphDigest := graph.graphDigest
    containmentDigest := containment.combinedDigest
    orderedStepIds := finalOrder
    dependencyEdges := sortedEdges dependencies
    deferredStepIds := deferred
    planDigest := sha3 (prioritiesContext ++ graph.graphDigest ++ containment.combinedDigest ++
      (sortByKey stepId steps).flatMap stepText ++
      (sortedEdges dependencies).flatMap dependencyText ++
      finalOrder.flatMap (fun sid => encode "O\x00" ++ encode sid ++ [0]) ++
      deferred.flatMap fun sid => encode "F\x00" ++ encode sid ++ [0])
    executable := true
    authority := false }

/-- `resolve_recovery_priorities_v0`. -/
def resolveRecoveryPrioritiesV0 (graph : LibraryTrustGraphV0)
    (containment : MultiScenarioContainmentV0) (steps : List RecoveryStepV0)
    (dependencies : List RecoveryDependencyV0) : Guarded RecoveryPriorityPlanV0 := do
  let verified ← verifyLibraryTrustGraphV0 sha3 graph
  raiseIf (¬ verified) (Fault.priorities "verified canonical trust graph required")
  raiseIf containment.authority
    (Fault.priorities "authority-free multi-scenario containment required")
  raiseIf (containment.graphDigest ≠ graph.graphDigest)
    (Fault.priorities "containment/graph mismatch")
  raiseIf (¬ containment.feasible)
    (Fault.priorities "infeasible containment cannot produce executable recovery")
  raiseIf (steps = []) (Fault.priorities "non-empty immutable recovery steps required")
  checkSteps (graph.nodes.map TrustGraphNodeV0.rootId) [] steps
  checkDependencies (steps.map stepId) [] dependencies
  raiseIf ((orderedSteps steps dependencies).length ≠ steps.length)
    (Fault.priorities "cyclic recovery dependency graph forbidden")
  let _ ← digest32 .priorities containment.combinedDigest "containment.combined_digest"
  .ok (recoveryPlan sha3 graph containment steps dependencies)

end Hashes

/-! ## Valid inputs -/

/-- A step that passes its own checks. -/
structure ValidStep (known : List String) (step : RecoveryStepV0) : Prop where
  stepId : step.stepId ≠ "" ∧ step.stepId.length ≤ 96
  root : step.rootId ∈ known
  action : step.actionDigest.length = 32
  evidence : step.evidenceDigest.length = 32 ∧ step.evidenceDigest ≠ zeros

/-- A dependency that passes its own checks. -/
structure ValidDependency (known : List String) (dependency : RecoveryDependencyV0) : Prop where
  before : dependency.beforeStepId ∈ known
  after : dependency.afterStepId ∈ known
  distinct : dependency.beforeStepId ≠ dependency.afterStepId
  evidence : dependency.evidenceDigest.length = 32 ∧ dependency.evidenceDigest ≠ zeros

/-- A verified graph, a feasible containment of it, and steps and dependencies that pass their
checks. -/
structure ValidInputs (sha3 : Bytes → Bytes) (graph : LibraryTrustGraphV0)
    (containment : MultiScenarioContainmentV0) (steps : List RecoveryStepV0)
    (dependencies : List RecoveryDependencyV0) : Prop where
  verified : verifyLibraryTrustGraphV0 sha3 graph = .ok true
  authority : containment.authority = false
  graphDigest : containment.graphDigest = graph.graphDigest
  feasible : containment.feasible = true
  combined : containment.combinedDigest.length = 32
  nonempty : steps ≠ []
  validSteps : ∀ step ∈ steps, ValidStep (graph.nodes.map TrustGraphNodeV0.rootId) step
  stepIds : (steps.map stepId).Nodup
  actions : (steps.map RecoveryStepV0.actionKey).Nodup
  validDependencies : ∀ dependency ∈ dependencies,
    ValidDependency (steps.map stepId) dependency
  edges : (dependencies.map edge).Nodup

variable {known : List String}

theorem checkSteps_of_valid {steps before : List RecoveryStepV0}
    (valid : ∀ step ∈ steps, ValidStep known step) (ids : ((before ++ steps).map stepId).Nodup)
    (actions : ((before ++ steps).map RecoveryStepV0.actionKey).Nodup) :
    checkSteps known before steps = .ok () := by
  induction steps generalizing before with
  | nil => rfl
  | cons step steps ih =>
    obtain ⟨first, rest⟩ := forall_mem_cons.mp valid
    have sized : ¬ (step.stepId = "" ∨ 96 < step.stepId.length) :=
      not_or.mpr ⟨first.stepId.1, not_lt.mpr first.stepId.2⟩
    unfold checkSteps
    rw [bind_raiseIf sized, bind_raiseIf (new_of_nodup_map ids),
      bind_raiseIf (not_not.mpr first.root), bind_of_ok (digest32_of_length first.action),
      bind_of_ok (digest32_of_length first.evidence.1), bind_raiseIf first.evidence.2,
      bind_raiseIf (new_of_nodup_map actions)]
    rw [append_cons] at ids actions
    exact ih rest ids actions

theorem checkDependencies_of_valid {dependencies before : List RecoveryDependencyV0}
    (valid : ∀ dependency ∈ dependencies, ValidDependency known dependency)
    (edges : ((before ++ dependencies).map edge).Nodup) :
    checkDependencies known before dependencies = .ok () := by
  induction dependencies generalizing before with
  | nil => rfl
  | cons dependency dependencies ih =>
    obtain ⟨first, rest⟩ := forall_mem_cons.mp valid
    have bound : ¬ (dependency.beforeStepId ∉ known ∨ dependency.afterStepId ∉ known ∨
        dependency.beforeStepId = dependency.afterStepId) :=
      not_or.mpr ⟨not_not.mpr first.before, not_or.mpr ⟨not_not.mpr first.after, first.distinct⟩⟩
    unfold checkDependencies
    rw [bind_raiseIf bound, bind_of_ok (digest32_of_length first.evidence.1),
      bind_raiseIf first.evidence.2, bind_raiseIf (new_of_nodup_map edges)]
    rw [append_cons] at edges
    exact ih rest edges

section Order

variable {sha3 : Bytes → Bytes} {graph : LibraryTrustGraphV0}
  {containment : MultiScenarioContainmentV0} {steps : List RecoveryStepV0}
  {dependencies : List RecoveryDependencyV0}

theorem resolve_of_valid (valid : ValidInputs sha3 graph containment steps dependencies) :
    resolveRecoveryPrioritiesV0 sha3 graph containment steps dependencies =
      if (orderedSteps steps dependencies).length = steps.length then
        .ok (recoveryPlan sha3 graph containment steps dependencies)
      else .error (.priorities "cyclic recovery dependency graph forbidden") := by
  have stepsPass := @checkSteps_of_valid _ _ [] valid.validSteps valid.stepIds valid.actions
  have dependenciesPass := @checkDependencies_of_valid _ _ [] valid.validDependencies valid.edges
  unfold resolveRecoveryPrioritiesV0
  rw [bind_of_ok valid.verified, bind_raiseIf (not_not.mpr rfl),
    bind_raiseIf (ne_true_of_eq_false valid.authority), bind_raiseIf (not_not.mpr valid.graphDigest),
    bind_raiseIf (not_not.mpr valid.feasible), bind_raiseIf valid.nonempty, bind_of_ok stepsPass,
    bind_of_ok dependenciesPass]
  by_cases all : (orderedSteps steps dependencies).length = steps.length
  · rw [if_pos all, bind_raiseIf (not_not.mpr all), bind_of_ok (digest32_of_length valid.combined)]
  · unfold raiseIf
    rw [if_neg all, if_pos all]
    rfl

/-! ## The order of the steps -/

/-- A step comes before another by a dependency. -/
def Precedes (dependencies : List RecoveryDependencyV0) (before after : String) : Prop :=
  (before, after) ∈ dependencies.map edge

section

variable (valid : ValidInputs sha3 graph containment steps dependencies)

include valid

/-- The names of the steps and the dependencies between them can be followed. -/
theorem valid_followed :
    Followed (steps.map stepId) (dependencies.map edge) (targets (dependencies.map edge)) where
  known := by
    intro a b edge
    obtain ⟨dependency, member, same⟩ := mem_map.mp edge
    obtain ⟨rfl, rfl⟩ := Prod.mk.inj same
    have bound := valid.validDependencies dependency member
    exact ⟨bound.before, bound.after⟩
  distinctItems := valid.stepIds
  targets := fun a b => ((sortByKey_perm id _).count_eq b).trans (count_targets _ a b)

theorem ordered_greedy :
    Greedy {sid | sid ∈ steps.map stepId} (Precedes dependencies) (readyKey steps) []
      (orderedSteps steps dependencies) :=
  kahn_greedy _ (valid_followed valid)

/-- All steps come in order exactly when the dependencies have no cycle. -/
theorem ordered_length_iff : (orderedSteps steps dependencies).length = steps.length ↔
      ∀ sid, ¬ TransGen (Precedes dependencies) sid sid := by
  rw [← length_map (f := stepId)]
  exact kahn_length_iff _ (valid_followed valid)

theorem ordered_perm (all : (orderedSteps steps dependencies).length = steps.length) :
    (orderedSteps steps dependencies).Perm (steps.map stepId) :=
  kahn_perm _ (valid_followed valid) (by rwa [length_map])

theorem deferred_sorted : (deferredSteps containment steps).Pairwise (· < ·) := by
  have nodup := (sortByKey_perm id ((steps.filter (RecoveryStepV0.isDeferred containment)).map
    stepId)).nodup_iff.mpr (valid.stepIds.sublist (filter_sublist.map _))
  exact ((sortByKey_pairwise id _).and nodup).imp fun ⟨ordered, different⟩ =>
    lt_of_le_of_ne ordered different

end

theorem mem_deferred {sid : String} : sid ∈ deferredSteps containment steps ↔
    ∃ step ∈ steps, step.isDeferred containment = true ∧ step.stepId = sid := by
  unfold deferredSteps
  rw [(sortByKey_perm id _).mem_iff, mem_map]
  constructor
  · rintro ⟨step, member, rfl⟩
    obtain ⟨member, isDeferred⟩ := mem_filter.mp member
    exact ⟨step, member, isDeferred, rfl⟩
  · rintro ⟨step, member, isDeferred, rfl⟩
    exact ⟨step, mem_filter.mpr ⟨member, isDeferred⟩, rfl⟩

theorem deferred_subset : deferredSteps containment steps ⊆ steps.map stepId := by
  intro sid member
  obtain ⟨step, here, -, rfl⟩ := mem_deferred.mp member
  exact mem_map_of_mem here

theorem final_perm (valid : ValidInputs sha3 graph containment steps dependencies)
    (all : (orderedSteps steps dependencies).length = steps.length) :
    (recoveryPlan sha3 graph containment steps dependencies).orderedStepIds.Perm
      (steps.map stepId) := by
  have ordered := ordered_perm valid all
  have kept : ((orderedSteps steps dependencies).filter fun sid =>
      !decide (sid ∈ deferredSteps containment steps)).Nodup :=
    (ordered.nodup_iff.mpr valid.stepIds).filter _
  have moved : (deferredSteps containment steps).Nodup :=
    (deferred_sorted valid).imp fun less => ne_of_lt less
  refine (List.perm_ext_iff_of_nodup (List.nodup_append'.mpr ⟨kept, moved, ?_⟩) valid.stepIds).mpr
    fun sid => ?_
  · intro sid stays isMoved
    have absent := List.of_mem_filter stays
    rw [decide_eq_true isMoved] at absent
    exact false_ne_true absent
  · rw [mem_append, mem_filter, ordered.mem_iff, not_eq_true', decide_eq_false_iff_not]
    constructor
    · rintro (⟨member, -⟩ | member)
      · exact member
      · exact deferred_subset member
    · intro member
      by_cases isMoved : sid ∈ deferredSteps containment steps
      · exact .inr isMoved
      · exact .inl ⟨member, isMoved⟩

/-- A dependency holds in the plan exactly when its first step is not deferred, or both are and have
their names in order. -/
theorem final_before_iff (valid : ValidInputs sha3 graph containment steps dependencies)
    (all : (orderedSteps steps dependencies).length = steps.length)
    {dependency : RecoveryDependencyV0} (member : dependency ∈ dependencies) :
    [dependency.beforeStepId, dependency.afterStepId].Sublist
        (recoveryPlan sha3 graph containment steps dependencies).orderedStepIds ↔
      (dependency.beforeStepId ∈ deferredSteps containment steps →
        dependency.afterStepId ∈ deferredSteps containment steps ∧
          dependency.beforeStepId < dependency.afterStepId) := by
  have ordered := ordered_perm valid all
  have bound := valid.validDependencies dependency member
  have edge : Precedes dependencies dependency.beforeStepId dependency.afterStepId :=
    mem_map_of_mem member
  have before := ((ordered_greedy valid).before edge (ordered.mem_iff.mpr bound.after)).resolve_left
    not_mem_nil
  have isLast : ∀ sid, sid ∈ deferredSteps containment steps ↔
      sid ∈ orderedSteps steps dependencies ∧
        decide (sid ∈ deferredSteps containment steps) = true := by
    intro sid
    rw [decide_eq_true_eq]
    exact ⟨fun isMoved => ⟨ordered.mem_iff.mpr (deferred_subset isMoved), isMoved⟩, And.right⟩
  refine (pair_sublist_moved_iff isLast before).trans ?_
  rw [decide_eq_true_eq, decide_eq_true_eq]
  refine forall_congr' fun first => and_congr_right fun second => ?_
  exact pair_sublist_iff_lt (deferred_sorted valid) first second

/-! ## The order of the inputs -/

theorem stepOf_perm {others : List RecoveryStepV0} (perm : others.Perm steps)
    (distinct : (steps.map stepId).Nodup) (sid : String) :
    stepOf others sid = stepOf steps sid := by
  have distinct' := (perm.map stepId).nodup_iff.mpr distinct
  refine Option.ext fun step => ?_
  unfold stepOf
  rw [find?_key_iff distinct, find?_key_iff distinct', perm.mem_iff]

theorem readyKey_apart {a b : String} (same : readyKey steps a = readyKey steps b) : a = b := by
  have last : ∀ sid, (ofLex (ofLex (readyKey steps sid)).2).2 = sid := by
    intro sid
    unfold readyKey
    cases stepOf steps sid with
    | none => rfl
    | some step => rfl
  rw [← last a, same, last b]

variable {otherSteps : List RecoveryStepV0} {otherDependencies : List RecoveryDependencyV0}

section

variable (valid : ValidInputs sha3 graph containment steps dependencies)
  (permSteps : otherSteps.Perm steps)
  (permDependencies : otherDependencies.Perm dependencies)

include valid permSteps permDependencies

theorem valid_perm : ValidInputs sha3 graph containment otherSteps otherDependencies where
  verified := valid.verified
  authority := valid.authority
  graphDigest := valid.graphDigest
  feasible := valid.feasible
  combined := valid.combined
  nonempty := fun none => valid.nonempty (List.nil_perm.mp (none ▸ permSteps))
  validSteps := fun step member => valid.validSteps step (permSteps.subset member)
  stepIds := (permSteps.map _).nodup_iff.mpr valid.stepIds
  actions := (permSteps.map _).nodup_iff.mpr valid.actions
  validDependencies := by
    intro dependency member
    have bound := valid.validDependencies dependency (permDependencies.subset member)
    have ids := fun sid => (permSteps.map stepId).mem_iff (a := sid)
    exact ⟨(ids _).mpr bound.before, (ids _).mpr bound.after, bound.distinct, bound.evidence⟩
  edges := (permDependencies.map _).nodup_iff.mpr valid.edges

theorem ordered_eq_of_perm :
    orderedSteps otherSteps otherDependencies = orderedSteps steps dependencies := by
  have greedy := ordered_greedy (valid_perm valid permSteps permDependencies)
  have sameItems : {sid | sid ∈ otherSteps.map stepId} = {sid | sid ∈ steps.map stepId} :=
    Set.ext fun _ => (permSteps.map _).mem_iff
  have samePrecedes : Precedes otherDependencies = Precedes dependencies :=
    funext fun _ => funext fun _ => propext (permDependencies.map _).mem_iff
  have sameKey : readyKey otherSteps = readyKey steps := by
    funext sid
    unfold readyKey
    rw [stepOf_perm permSteps valid.stepIds]
  rw [sameItems, samePrecedes, sameKey] at greedy
  exact greedy.unique (fun _ _ _ _ => readyKey_apart) (ordered_greedy valid)

theorem resolve_perm :
    resolveRecoveryPrioritiesV0 sha3 graph containment otherSteps otherDependencies =
      resolveRecoveryPrioritiesV0 sha3 graph containment steps dependencies := by
  have ordered := ordered_eq_of_perm valid permSteps permDependencies
  have deferred : deferredSteps containment otherSteps = deferredSteps containment steps :=
    sortByKey_eq_of_perm ((permSteps.filter _).map _) fun _ _ _ _ => id
  have edges : sortedEdges otherDependencies = sortedEdges dependencies :=
    sortByKey_eq_of_perm (permDependencies.map _) fun _ _ _ _ => id
  have texts : sortByKey stepId otherSteps = sortByKey stepId steps := by
    refine (sortByKey_eq_of_perm permSteps.symm fun a first b second same => ?_).symm
    exact inj_on_of_nodup_map valid.stepIds first second same
  rw [resolve_of_valid valid, resolve_of_valid (valid_perm valid permSteps permDependencies), ordered,
    permSteps.length_eq]
  unfold recoveryPlan
  rw [ordered, deferred, edges, texts]

end

/-! ## Hard dependencies -/

/-- A plan is of all steps and keeps every dependency, there is none exactly when the dependencies have a
cycle, and it does not depend on the order of the steps and the dependencies. -/
structure RespectsDependencies (sha3 : Bytes → Bytes) (graph : LibraryTrustGraphV0)
    (containment : MultiScenarioContainmentV0) (steps : List RecoveryStepV0)
    (dependencies : List RecoveryDependencyV0) : Prop where
  fails : (∃ fault, resolveRecoveryPrioritiesV0 sha3 graph containment steps dependencies =
    .error fault) ↔ ∃ sid, TransGen (Precedes dependencies) sid sid
  permutation : ∀ plan, resolveRecoveryPrioritiesV0 sha3 graph containment steps dependencies =
    .ok plan → plan.orderedStepIds.Perm (steps.map stepId)
  before : ∀ plan, resolveRecoveryPrioritiesV0 sha3 graph containment steps dependencies = .ok plan →
    ∀ dependency ∈ dependencies,
      [dependency.beforeStepId, dependency.afterStepId].Sublist plan.orderedStepIds
  inputs : ∀ otherSteps otherDependencies, otherSteps.Perm steps →
    otherDependencies.Perm dependencies →
      resolveRecoveryPrioritiesV0 sha3 graph containment otherSteps otherDependencies =
        resolveRecoveryPrioritiesV0 sha3 graph containment steps dependencies

/-- A step that some step depends on is deferred only together with that step, and has the lesser
name. -/
def DefersInOrder (containment : MultiScenarioContainmentV0) (steps : List RecoveryStepV0)
    (dependencies : List RecoveryDependencyV0) : Prop :=
  ∀ dependency ∈ dependencies, dependency.beforeStepId ∈ deferredSteps containment steps →
    dependency.afterStepId ∈ deferredSteps containment steps ∧
      dependency.beforeStepId < dependency.afterStepId

/-- On valid inputs, a plan keeps hard dependencies exactly when acyclic ones leave no step that others depend on behind. -/
theorem respects_dependencies_iff (valid : ValidInputs sha3 graph containment steps dependencies) :
    RespectsDependencies sha3 graph containment steps dependencies ↔
      ((∀ sid, ¬ Relation.TransGen (Precedes dependencies) sid sid) →
        DefersInOrder containment steps dependencies) := by
  have outcome := resolve_of_valid valid
  have complete := ordered_length_iff valid
  constructor
  · intro respects acyclic dependency member
    have all := complete.mpr acyclic
    rw [if_pos all] at outcome
    exact (final_before_iff valid all member).mp (respects.before _ outcome dependency member)
  · intro inOrder
    by_cases all : (orderedSteps steps dependencies).length = steps.length
    · have acyclic := complete.mp all
      rw [if_pos all] at outcome
      constructor
      · rw [outcome]
        constructor
        · rintro ⟨fault, impossible⟩
          cases impossible
        · rintro ⟨sid, cycle⟩
          exact absurd cycle (acyclic sid)
      · intro plan ran
        rw [outcome] at ran
        cases ran
        exact final_perm valid all
      · intro plan ran dependency member
        rw [outcome] at ran
        cases ran
        exact (final_before_iff valid all member).mpr (inOrder acyclic dependency member)
      · exact fun _ _ => resolve_perm valid
    · have cyclic := mt complete.mpr all
      rw [if_neg all] at outcome
      constructor
      · rw [outcome]
        refine ⟨fun _ => ?_, fun _ => ⟨_, rfl⟩⟩
        by_contra none
        exact cyclic (not_exists.mp none)
      · intro plan ran
        rw [outcome] at ran
        cases ran
      · intro plan ran
        rw [outcome] at ran
        cases ran
      · exact fun _ _ => resolve_perm valid

end Order

/-! ## A step that others depend on -/

def lonelyNode : TrustGraphNodeV0 := ⟨"root", 1, filled 1, filled 2⟩

def lonelyGraph : LibraryTrustGraphV0 where
  nodes := [lonelyNode]
  edges := []
  graphDigest := checksum (graphContext ++ [encode "N\x00" ++ encode lonelyNode.rootId ++ [0] ++
    bigEndian 8 1 ++ lonelyNode.rootBindingDigest ++ lonelyNode.technologyDigest].flatten ++
    ([] : List TrustGraphEdgeV0).flatMap edgeText)
  authority := false

/-- A containment of the graph that isolates nothing. -/
def openContainment : MultiScenarioContainmentV0 where
  graphDigest := lonelyGraph.graphDigest
  isolatedRoots := []
  combinedDigest := filled 3
  feasible := true
  authority := false

/-- A step of low priority, and one of normal priority. -/
def lowStep : RecoveryStepV0 := ⟨"snapshot", "root", filled 4, filled 5, .low, false⟩

def normalStep : RecoveryStepV0 := ⟨"wipe", "root", filled 6, filled 7, .normal, true⟩

/-- The step of low priority comes before the other. -/
def snapshotFirst : RecoveryDependencyV0 := ⟨"snapshot", "wipe", filled 8⟩

theorem lonelyGraph_verified : verifyLibraryTrustGraphV0 checksum lonelyGraph = .ok true := by
  have built : buildLibraryTrustGraphV0 checksum lonelyGraph.nodes lonelyGraph.edges =
      .ok lonelyGraph := by
    unfold buildLibraryTrustGraphV0 lonelyGraph
    rw [sortByKey_singleton, sortByKey_nil]
    rfl
  exact verify_of_built rfl built

theorem snapshot_valid :
    ValidInputs checksum lonelyGraph openContainment [lowStep, normalStep] [snapshotFirst] where
  verified := lonelyGraph_verified
  authority := rfl
  graphDigest := rfl
  feasible := rfl
  combined := rfl
  nonempty := cons_ne_nil _ _
  validSteps := by
    intro step member
    rcases List.mem_pair.mp member with rfl | rfl
    · exact ⟨by decide, mem_singleton_self _, rfl, rfl, by decide⟩
    · exact ⟨by decide, mem_singleton_self _, rfl, rfl, by decide⟩
  stepIds := by decide
  actions := by decide
  validDependencies := by
    intro dependency member
    rw [mem_singleton.mp member]
    exact ⟨by decide, by decide, by decide, rfl, by decide⟩
  edges := by decide

/-- The step of low priority is moved behind the step that depends on it. -/
theorem deferred_dependency_broken :
    ValidInputs checksum lonelyGraph openContainment [lowStep, normalStep] [snapshotFirst] ∧
      (∀ sid, ¬ Relation.TransGen (Precedes [snapshotFirst]) sid sid) ∧
      ¬ RespectsDependencies checksum lonelyGraph openContainment [lowStep, normalStep]
        [snapshotFirst] := by
  have valid := snapshot_valid
  have acyclic : ∀ sid, ¬ Relation.TransGen (Precedes [snapshotFirst]) sid sid := by
    refine acyclic_of_sublist (l := ["snapshot", "wipe"]) (by decide) fun a b edge => ?_
    obtain ⟨rfl, rfl⟩ := Prod.mk.inj (mem_singleton.mp edge)
    exact List.Sublist.refl _
  have all := (ordered_length_iff valid).mpr acyclic
  refine ⟨valid, acyclic, fun respects => ?_⟩
  have outcome := resolve_of_valid valid
  rw [if_pos all] at outcome
  have member : snapshotFirst ∈ [snapshotFirst] := mem_singleton_self _
  have behind := (final_before_iff valid all member).mp (respects.before _ outcome _ member)
  have first : "snapshot" ∈ deferredSteps openContainment [lowStep, normalStep] :=
    mem_deferred.mpr ⟨lowStep, mem_cons_self, rfl, rfl⟩
  obtain ⟨step, isStep, isDeferred, named⟩ := mem_deferred.mp (behind first).1
  rcases List.mem_pair.mp isStep with rfl | rfl
  · exact absurd named (by decide)
  · exact absurd isDeferred (by decide)

theorem respects_dependencies_iff_snapshot :
    ValidInputs checksum lonelyGraph openContainment [lowStep, normalStep] [snapshotFirst] ∧
      (RespectsDependencies checksum lonelyGraph openContainment [lowStep, normalStep]
        [snapshotFirst] ↔ ((∀ sid, ¬ Relation.TransGen (Precedes [snapshotFirst]) sid sid) →
          DefersInOrder openContainment [lowStep, normalStep] [snapshotFirst])) :=
  ⟨snapshot_valid, respects_dependencies_iff snapshot_valid⟩

end Koschei.Recovery
