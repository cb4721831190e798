import Koschei.Lib.Precedence
import Koschei.Workspace.Lock
import Mathlib.Algebra.Order.Ring.Int

/-!
# The build order of a workspace

`_topological_order` counts the dependencies of every package that are not built,
and builds the first package by name of those that have none left. Which order
comes out is settled by the dependencies and not by how the map lists them. So the
order in a lock is found again from the members of the lock.
-/

namespace Koschei.Workspace

open Lib

/-- The packages with the packages they depend on. -/
structure DependencyMap where
  entries : List (String × List String)
  distinct : (entries.map fst).Nodup

/-- `MAX_WORKSPACE_DEPENDENCY_EDGES`. -/
def maxDependencyEdges : Nat := 1000000

/-! ## The functions -/

/-- `sorted(set(required) - known)`. -/
def unknownOf (known required : List String) : List String :=
  sortByKey id (required.filter fun name => decide (name ∉ known)).dedup

def unknownFault (owner : String) (unknown : List String) : Fault :=
  .workspace (owner ++ " depends on unknown workspace packages: " ++ ", ".intercalate unknown)

def edgeFault : Fault := .workspace "workspace dependency count exceeds the 1000000-edge budget"

def cycleFault (cyclic : List String) : Fault :=
  .workspace ("workspace dependency cycle detected: " ++ ", ".intercalate cyclic)

/-- The checks of the first loop. -/
def checkDependencies (known : List String) : Nat → List (String × List String) → Checked Unit
  | _, [] => .ok ()
  | edgeCount, (owner, required) :: rest => do
    raiseIf (unknownOf known required ≠ []) (unknownFault owner (unknownOf known required))
    raiseIf (maxDependencyEdges < edgeCount + required.length) edgeFault
    checkDependencies known (edgeCount + required.length) rest

namespace DependencyMap

variable (dependencies : DependencyMap)

def names : List String := dependencies.entries.map fst

/-- A package and one that depends on it, as often as it says so. -/
def edges : List (String × String) :=
  dependencies.entries.flatMap fun entry => entry.2.map fun name => (name, entry.1)

/-- `dependents`. -/
def dependents (name : String) : List String :=
  sortByKey id ((dependencies.edges.filter fun edge => decide (edge.1 = name)).map snd)

end DependencyMap

/-- `_topological_order`. -/
def topologicalOrder (dependencies : DependencyMap) : Checked (List String) := do
  checkDependencies dependencies.names 0 dependencies.entries
  let final := (Frontier.initial dependencies.names dependencies.edges).drain id
    dependencies.dependents dependencies.names.length
  raiseIf (final.ordered.length ≠ dependencies.names.length)
    (cycleFault (sortByKey id (dependencies.names.filter fun name => 0 < final.indegree name)))
  .ok final.ordered

/-- What `_parse_workspace_lock` checks about the build order. -/
def checkBuildOrder {D : Type} (locked : WorkspaceLock D) : Checked Unit := do
  raiseIf (¬ locked.buildOrder.Nodup) (.workspace "workspace lock build_order contains duplicates")
  let entries := locked.members.map fun member => (member.name, member.dependencies)
  if distinct : (entries.map fst).Nodup then do
    raiseIf (¬ (entries.map fst ⊆ locked.buildOrder ∧
      locked.buildOrder ⊆ entries.map fst))
      (.workspace "workspace lock member/build_order package sets differ")
    let order ← topologicalOrder ⟨entries, distinct⟩
    raiseIf (order ≠ locked.buildOrder)
      (.workspace "workspace lock build_order does not match dependency graph")
    raiseIf (entries.map fst ≠ locked.buildOrder)
      (.workspace "workspace lock members must be stored in build order")
  else .error (.workspace "workspace lock member/build_order package sets differ")

/-! ## The order -/

/-- The entries pass the checks of the first loop. -/
@[mk_iff]
structure Admits (known : List String) (edgeCount : Nat) (entries : List (String × List String)) :
    Prop where
  known : ∀ entry ∈ entries, ∀ name ∈ entry.2, name ∈ known
  few : edgeCount + (entries.map fun entry => entry.2.length).sum ≤ maxDependencyEdges

namespace DependencyMap

/-- One package is a dependency of another. -/
def Requires (dependencies : DependencyMap) (name owner : String) : Prop :=
  ∃ required, (owner, required) ∈ dependencies.entries ∧ name ∈ required

/-- Every dependency is a package, and there are not too many. -/
def Admissible (dependencies : DependencyMap) : Prop :=
  Admits dependencies.names 0 dependencies.entries

/-- All packages, each after its dependencies: of those whose dependencies are built, always the
first by name, which makes the lexicographically first such order. -/
structure Canonical (dependencies : DependencyMap) (order : List String) : Prop where
  perm : order.Perm dependencies.names
  after : ∀ name owner, dependencies.Requires name owner → [name, owner].Sublist order
  greedy : Greedy {name | name ∈ dependencies.names} dependencies.Requires id [] order
  least : ∀ other : List String, other.Perm dependencies.names →
    (∀ name owner, dependencies.Requires name owner → [name, owner].Sublist other) → ¬ other < order

variable {dependencies : DependencyMap}

theorem mem_edges {name owner : String} :
    (name, owner) ∈ dependencies.edges ↔ dependencies.Requires name owner := by
  simp only [edges, mem_flatMap, mem_map, Prod.mk.injEq, Requires]
  constructor
  · rintro ⟨⟨_, required⟩, member, _, inside, rfl, rfl⟩
    exact ⟨_, member, inside⟩
  · rintro ⟨required, member, inside⟩
    exact ⟨(owner, required), member, name, inside, rfl, rfl⟩

theorem requires_eq : dependencies.Requires = fun name owner => (name, owner) ∈ dependencies.edges := by
  funext name owner
  exact propext mem_edges.symm

theorem followed (admissible : dependencies.Admissible) :
    Followed dependencies.names dependencies.edges dependencies.dependents where
  known := by
    intro name owner edge
    obtain ⟨required, member, inside⟩ := mem_edges.mp edge
    exact ⟨admissible.known _ member name inside, mem_map.mpr ⟨_, member, rfl⟩⟩
  distinctItems := dependencies.distinct
  targets := fun a b => ((sortByKey_perm id _).count_eq b).trans (count_targets _ a b)

/-- The order is unique, so it is that of every map with the same entries. -/
theorem Canonical.unique {other : DependencyMap} (perm : other.entries.Perm dependencies.entries)
    {order order' : List String} (canonical : dependencies.Canonical order)
    (canonical' : other.Canonical order') : order' = order := by
  have names : {name | name ∈ other.names} = {name | name ∈ dependencies.names} :=
    Set.ext fun name => (perm.map fst).mem_iff
  have requires : other.Requires = dependencies.Requires := by
    funext name owner
    simp only [Requires, perm.mem_iff]
  have greedy := canonical'.greedy
  rw [names, requires] at greedy
  exact greedy.unique (fun _ _ _ _ same => same) canonical.greedy

end DependencyMap

open DependencyMap

theorem unknownOf_eq_nil {known required : List String} :
    unknownOf known required = [] ↔ ∀ name ∈ required, name ∈ known := by
  rw [unknownOf, ← length_eq_zero_iff, (sortByKey_perm id _).length_eq,
    length_eq_zero_iff, List.dedup_eq_nil, filter_eq_nil_iff]
  simp

/-- The checks pass where they can, and stop at an entry or at too many edges elsewhere. -/
theorem checkDependencies_cases {known : List String} {count : Nat}
    {entries : List (String × List String)} (small : count ≤ maxDependencyEdges) :
    (Admits known count entries → checkDependencies known count entries = .ok ()) ∧
    (¬ Admits known count entries → checkDependencies known count entries = .error edgeFault ∨
      ∃ entry ∈ entries, checkDependencies known count entries =
        .error (unknownFault entry.1 (unknownOf known entry.2))) := by
  induction entries generalizing count with
  | nil => exact ⟨fun _ => rfl, fun not => absurd ⟨by simp, by simpa using small⟩ not⟩
  | cons entry entries ih =>
    obtain ⟨owner, required⟩ := entry
    by_cases unknown : unknownOf known required = []
    · by_cases many : maxDependencyEdges < count + required.length
      · rw [checkDependencies, bind_raiseIf (not_not.mpr unknown), bind_raiseIf_of many]
        refine ⟨fun admits => ?_, fun _ => .inl rfl⟩
        have few := admits.few
        simp only [map_cons, sum_cons] at few
        omega
      · have rest : Admits known count ((owner, required) :: entries) ↔
            Admits known (count + required.length) entries := by
          rw [unknownOf_eq_nil] at unknown
          simp only [admits_iff, forall_mem_cons, map_cons, sum_cons, Nat.add_assoc]
          exact ⟨fun both => ⟨both.1.2, both.2⟩, fun both => ⟨⟨unknown, both.1⟩, both.2⟩⟩
        rw [checkDependencies, bind_raiseIf (not_not.mpr unknown), bind_raiseIf many, rest]
        obtain ⟨passes, stops⟩ := ih (Nat.not_lt.mp many)
        refine ⟨passes, fun not => (stops not).imp_right ?_⟩
        rintro ⟨entry, member, stopped⟩
        exact ⟨entry, mem_cons_of_mem _ member, stopped⟩
    · rw [checkDependencies, bind_raiseIf_of unknown]
      refine ⟨fun admits => absurd (unknownOf_eq_nil.mpr ?_) unknown,
        fun _ => .inr ⟨_, mem_cons_self, rfl⟩⟩
      exact admits.known _ mem_cons_self

variable {dependencies : DependencyMap}

/-- An order when there is no cycle, and the error about a cycle when there is one. -/
theorem topologicalOrder_of_admissible (admissible : dependencies.Admissible) :
    ((∀ name, ¬ TransGen dependencies.Requires name name) ∧
      ∃ order, topologicalOrder dependencies = .ok order ∧ dependencies.Canonical order) ∨
    ((∃ name, TransGen dependencies.Requires name name) ∧
      ∃ cyclic, topologicalOrder dependencies = .error (cycleFault cyclic)) := by
  have checked := (checkDependencies_cases (Nat.zero_le _)).1 admissible
  have follows := followed admissible
  have acyclic := kahn_length_iff id follows
  have greedy := kahn_greedy id follows
  rw [← requires_eq] at acyclic greedy
  by_cases all : (kahn id dependencies.names dependencies.edges dependencies.dependents).length =
      dependencies.names.length
  · have perm := kahn_perm id follows all
    refine .inl ⟨acyclic.mp all, _, ?_, perm, fun name owner required => ?_, greedy,
      fun other others after => ?_⟩
    · rw [topologicalOrder, bind_of_ok checked]
      exact bind_raiseIf (not_not.mpr all)
    · have member := perm.mem_iff.mpr (follows.known name owner (mem_edges.mpr required)).2
      exact (greedy.before required member).resolve_left not_mem_nil
    · exact greedy.least (fun name member => others.mem_iff.mpr member)
        (fun name member => others.mem_iff.mp member) (others.nodup_iff.mpr dependencies.distinct)
        fun name owner required _ => .inr (after name owner required)
  · refine .inr ⟨by simpa using mt acyclic.mpr all, ?_⟩
    rw [topologicalOrder, bind_of_ok checked]
    exact ⟨_, bind_raiseIf_of all⟩

theorem canonical_of_ok {order : List String} (ran : topologicalOrder dependencies = .ok order) :
    dependencies.Admissible ∧ dependencies.Canonical order := by
  by_cases admissible : dependencies.Admissible
  · rcases topologicalOrder_of_admissible admissible with ⟨-, _, found, canonical⟩ | ⟨-, _, stopped⟩
    · cases ran.symm.trans found
      exact ⟨admissible, canonical⟩
    · cases ran.symm.trans stopped
  · obtain ⟨_, passed, -⟩ := bind_eq_ok ran
    rcases (checkDependencies_cases (Nat.zero_le _)).2 admissible with stopped | ⟨_, -, stopped⟩ <;>
      cases passed.symm.trans stopped

/-- However the map lists its entries, the order is the same. -/
theorem topologicalOrder_perm {other : DependencyMap}
    (perm : other.entries.Perm dependencies.entries) {order : List String}
    (ran : topologicalOrder dependencies = .ok order) : topologicalOrder other = .ok order := by
  obtain ⟨admissible, canonical⟩ := canonical_of_ok ran
  have names := perm.map fst
  have requires : other.Requires = dependencies.Requires := by
    funext name owner
    simp only [Requires, perm.mem_iff]
  have admits : other.Admissible := by
    refine ⟨fun entry member name inside => names.mem_iff.mpr ?_, ?_⟩
    · exact admissible.known entry (perm.mem_iff.mp member) name inside
    · rw [(perm.map _).sum_eq]
      exact admissible.few
  rcases topologicalOrder_of_admissible admits with ⟨-, order', found, canonical'⟩ |
    ⟨⟨name, cycle⟩, -⟩
  · rw [found, canonical.unique perm canonical']
  · rw [requires] at cycle
    exact absurd cycle (acyclic_of_sublist (canonical.perm.nodup_iff.mpr dependencies.distinct)
      canonical.after name)

section Lock

variable {D Program : Type} {hash : Hashing D} {compiler : Compiler Program}
  {workspace : WorkspaceConfig} {tree : Tree} {locked : WorkspaceLock D}

/-- The packages of a workspace with their dependencies. -/
def WorkspaceConfig.dependencyMap (workspace : WorkspaceConfig) : DependencyMap where
  entries := workspace.members.map fun member => (member.name, member.dependencies)
  distinct := by
    rw [map_map]
    exact workspace.names_distinct

theorem checkBuildOrder_of_written
    (loaded : topologicalOrder workspace.dependencyMap = .ok workspace.buildOrder)
    (written : buildWorkspacePackageLock hash compiler workspace tree = .ok locked) :
    checkBuildOrder locked = .ok () := by
  obtain ⟨members, -, sameOrder, -⟩ := buildWorkspacePackageLock_eq_ok written
  -- both maps give each name what the member of that name depends on
  let entry : String → String × List String := fun name =>
    (name, ((workspace.byName name).map WorkspaceMember.dependencies).getD [])
  have entries : (locked.members.map fun member => (member.name, member.dependencies)) =
      workspace.buildOrder.map entry := by
    refine List.forall₂_eq_eq_eq ▸ List.forall₂_map_left_iff.mpr (List.forall₂_map_right_iff.mpr
      (members.flip.imp fun locked name written => ?_))
    obtain ⟨member, _, _, _, found, -, -, -, -, rfl⟩ := lockMember_eq_ok written
    simp [entry, found]
  have listed : workspace.dependencyMap.entries =
      (workspace.members.map WorkspaceMember.name).map entry := by
    rw [map_map]
    refine map_congr_left fun member inside => ?_
    simp [entry, WorkspaceConfig.byName_eq_some.mpr ⟨inside, rfl⟩]
  have canonical := (canonical_of_ok loaded).2
  have order : workspace.buildOrder.Perm (workspace.members.map WorkspaceMember.name) := by
    have perm := canonical.perm
    rwa [DependencyMap.names, WorkspaceConfig.dependencyMap, map_map] at perm
  have names : (locked.members.map fun member => (member.name, member.dependencies)).map fst =
      workspace.buildOrder := by
    rw [entries, map_map]
    exact map_id _
  have distinct : workspace.buildOrder.Nodup := order.nodup_iff.mpr workspace.names_distinct
  have found : ∀ again, topologicalOrder
      ⟨locked.members.map fun member => (member.name, member.dependencies), again⟩ =
        .ok workspace.buildOrder := fun again => by
    refine topologicalOrder_perm ?_ loaded
    rw [listed]
    exact (List.Perm.of_eq entries).trans (order.map entry)
  rw [checkBuildOrder, sameOrder, bind_raiseIf (not_not.mpr distinct)]
  dsimp only
  rw [dif_pos (by rwa [names]), bind_raiseIf (by simp [names]), bind_of_ok (found _),
    bind_raiseIf (by simp), raiseIf_of_not (by simp [names])]

end Lock

/-- Two packages, one of which depends on the other. -/
def utility : DependencyMap := ⟨[("app", ["util"]), ("util", [])], by decide⟩

/-- A package that depends on one that is not there. -/
def stray : DependencyMap := ⟨[("a", ["b"])], by decide⟩

end Koschei.Workspace
