import Koschei.Workspace.Modules
import Koschei.Lib.Pointwise
import Mathlib.Data.List.Sort

/-!
# Locks of a workspace

`workspace_package_lock.py` locks the digests of the manifests and, for each
package, the digest of the modules its entry leads to. Verifying a lock in full
builds it again and compares the two.
-/

namespace Koschei.Workspace

open Lib

section Locks

variable {D : Type}

/-- `LockedModule`. -/
structure LockedModule (D : Type) where
  path : Path
  sha256 : D
  imports : List (String × Path)
  deriving DecidableEq

/-- `ModuleLock`. -/
structure ModuleLock (D : Type) where
  entrypoint : Path
  modules : List (LockedModule D)
  lockDigest : D
  deriving DecidableEq

/-- `WorkspaceLockedMember`. -/
structure WorkspaceLockedMember (D : Type) where
  name : String
  root : Path
  version : String
  entry : Path
  dependencies : List String
  manifestSha256 : D
  moduleLockDigest : D
  deriving DecidableEq

/-- `WorkspaceLock`. -/
structure WorkspaceLock (D : Type) where
  manifestSha256 : D
  members : List (WorkspaceLockedMember D)
  buildOrder : List String
  workspaceDigest : D
  deriving DecidableEq

/-- `IndexedSource`. -/
structure IndexedSource (D : Type) where
  path : Path
  sha256 : D
  deriving DecidableEq

/-- SHA-256 of the contents of a file, and of the payloads of locks and of the source index. -/
structure Hashing (D : Type) where
  contents : Bytes → D
  moduleLock : Path → List (LockedModule D) → D
  workspaceLock : D → List (WorkspaceLockedMember D) → List String → D
  index : D → D → List (IndexedSource D) → D

/-- No two inputs have one digest. -/
structure CollisionFree (hash : Hashing D) : Prop where
  contents : ∀ a b, hash.contents a = hash.contents b → a = b
  workspaceLock : ∀ manifest members order manifest' members' order',
    hash.workspaceLock manifest members order = hash.workspaceLock manifest' members' order' →
      manifest = manifest' ∧ members = members' ∧ order = order'
  moduleLock : ∀ entrypoint modules entrypoint' modules',
    hash.moduleLock entrypoint modules = hash.moduleLock entrypoint' modules' →
      entrypoint = entrypoint' ∧ modules = modules'

/-- `_relative_module_path`. -/
def relativeModulePath (root path : Path) : Checked Path := if root <+: path then
    if ".." ∈ path.drop root.length ∨ suffix (fileName (path.drop root.length)) ≠ ".ks" then
      .error (.moduleLock "KS1902" ("unsafe module path: " ++ posix (path.drop root.length)))
    else .ok (path.drop root.length)
  else .error (.moduleLock "KS1902" ("module escapes the project root: " ++ posix path))

section Files

variable (hash : Hashing D) (tree : Tree)

/-- `_sha256_file`. -/
def sha256File (path : Path) : Checked D := match tree.contents path with
  | none => .error (.system "OSError")
  | some contents => .ok (hash.contents contents)

end Files

section Modules

variable {Program : Type} (hash : Hashing D) (tree : Tree) (root : Path)

def relativeImports : List (String × Path) → Checked (List (String × Path))
  | [] => .ok []
  | (name, target) :: imports => do
    let target ← relativeModulePath root target
    let imports ← relativeImports imports
    .ok ((name, target) :: imports)

def lockModule (path : Path) (module : Loaded Path String Program) : Checked (LockedModule D) := do
  let relative ← relativeModulePath root path
  let imports ← relativeImports root module.imports
  let sha256 ← sha256File hash tree path
  .ok ⟨relative, sha256, imports.insertionSort fun first second => first.1 ≤ second.1⟩

def lockModules : GraphModules Program → Checked (List (LockedModule D))
  | [] => .ok []
  | (path, module) :: modules => do
    let locked ← lockModule hash tree root path module
    let rest ← lockModules modules
    .ok (locked :: rest)

/-- `build_module_lock`, of a graph that is loaded. -/
def buildModuleLock (compiler : Compiler Program) (graph : ModuleGraph Program) (entry : Path) :
    Checked (ModuleLock D) := do
  compiler.checkGraph graph
  let modules ← lockModules hash tree root graph.modules
  let ordered := modules.insertionSort fun first second => posix first.path ≤ posix second.path
  let entrypoint ← relativeModulePath root entry
  .ok ⟨entrypoint, ordered, hash.moduleLock entrypoint ordered⟩

end Modules

section Members

variable {Program : Type} (hash : Hashing D) (compiler : Compiler Program)
  (workspace : WorkspaceConfig) (tree : Tree)

/-- `graph_uses_workspace_packages`. -/
def graphUsesWorkspacePackages (member : WorkspaceMember) (graph : ModuleGraph Program) : Bool :=
  graph.modules.any fun module => ! member.root.isPrefixOf module.1

/-- The module lock of a member, in a graph of its modules. -/
def memberModuleLock (member : WorkspaceMember) (graph : ModuleGraph Program) :
    Checked (ModuleLock D) :=
  buildModuleLock hash tree
    (if graphUsesWorkspacePackages member graph then [] else member.entryPath.dropLast)
    compiler graph member.entryPath

def lockMember (name : String) : Checked (WorkspaceLockedMember D) :=
  match workspace.byName name with
  | none => .error (.system "KeyError")
  | some member => do
    let graph ← loadWorkspaceMemberGraph compiler workspace tree name
    raiseIf (graph.root ≠ member.entryPath)
      (.workspace ("workspace package graph root mismatch: " ++ name))
    let moduleLock ← memberModuleLock hash compiler tree member graph
    let manifest ← sha256File hash tree member.manifest
    .ok ⟨name, member.root, member.version, member.entry, member.dependencies, manifest,
      moduleLock.lockDigest⟩

def lockMembers : List String → Checked (List (WorkspaceLockedMember D))
  | [] => .ok []
  | name :: names => do
    let locked ← lockMember hash compiler workspace tree name
    let rest ← lockMembers names
    .ok (locked :: rest)

/-- `build_workspace_package_lock`. -/
def buildWorkspacePackageLock : Checked (WorkspaceLock D) := do
  let members ← lockMembers hash compiler workspace tree workspace.buildOrder
  let manifest ← sha256File hash tree workspaceManifest
  .ok ⟨manifest, members, workspace.buildOrder,
    hash.workspaceLock manifest members workspace.buildOrder⟩

/-- `verify_workspace_package_lock_full`. -/
def verifyWorkspacePackageLockFull [DecidableEq D] (locked : WorkspaceLock D) :
    Checked (WorkspaceLock D) := do
  let current ← buildWorkspacePackageLock hash compiler workspace tree
  if current = locked then .ok current else do
  raiseIf (current.manifestSha256 ≠ locked.manifestSha256)
    (.workspace "workspace manifest digest changed")
  let names := fun lock : WorkspaceLock D => lock.members.map WorkspaceLockedMember.name
  raiseIf (¬ (names locked ⊆ names current ∧ names current ⊆ names locked))
    (.workspace "workspace member set changed")
  match current.buildOrder.find? fun name =>
      decide (locked.members.reverse.find? (fun member => decide (member.name = name)) ≠
        current.members.reverse.find? fun member => decide (member.name = name)) with
  | some name => .error (.workspace ("workspace member identity changed: " ++ name))
  | none => do
    raiseIf (current.buildOrder ≠ locked.buildOrder)
      (.workspace "workspace dependency build order changed")
    .error (.workspace "workspace lock digest changed")

end Members

/-! ## What a lock is built from -/

variable {path : Path}

theorem fileName_drop {count : Nat} (rest : path.drop count ≠ []) :
    fileName (path.drop count) = fileName path := by
  have joined := List.getLast?_append_of_ne_nil (path.take count) rest
  rw [take_append_drop] at joined
  unfold fileName
  rw [joined]

variable {root : Path} {relative : Path}

theorem relativeModulePath_eq_ok (passed : relativeModulePath root path = .ok relative) :
    root <+: path ∧ isSource (fileName path) = true := by
  unfold relativeModulePath at passed
  split at passed
  · rename_i under
    split at passed
    · cases passed
    · rename_i safe
      have source := isSource_of_suffix (not_not.mp (not_or.mp safe).2)
      have rest : path.drop root.length ≠ [] := by
        intro empty
        rw [empty] at source
        exact absurd source (by decide)
      exact ⟨under, fileName_drop rest ▸ source⟩
  · cases passed

theorem relativeModulePath_eq_drop
    (passed : relativeModulePath root path = .ok relative) : path = root ++ relative := by
  unfold relativeModulePath at passed
  split at passed
  · rename_i under
    obtain ⟨rest, rfl⟩ := under
    split at passed
    · cases passed
    · cases passed
      rw [List.drop_left]
  · cases passed

theorem sha256File_eq_ok {hash : Hashing D} {tree : Tree} {digest : D}
    (passed : sha256File hash tree path = .ok digest) :
    ∃ contents, tree.contents path = some contents ∧ hash.contents contents = digest := by
  unfold sha256File at passed
  split at passed
  · cases passed
  · cases passed
    exact ⟨_, ‹_›, rfl⟩

section Inversion

variable {Program : Type} {hash : Hashing D} {compiler : Compiler Program}
  {workspace : WorkspaceConfig} {tree : Tree} {name : String} {graph : ModuleGraph Program}

theorem loadWorkspaceMemberGraph_eq_ok
    (passed : loadWorkspaceMemberGraph compiler workspace tree name = .ok graph) :
    ∃ member, workspace.byName name = some member ∧ workspace.checkRoots = .ok () ∧
      graph.root = member.entryPath ∧
      (loader compiler workspace tree).load compiler.depth [] member.entryPath
        (stem (fileName member.entryPath)) [] = .ok graph.modules := by
  unfold loadWorkspaceMemberGraph at passed
  split at passed
  · cases passed
  · rename_i member found
    obtain ⟨_, roots, passed⟩ := bind_eq_ok passed
    obtain ⟨modules, loaded, passed⟩ := bind_eq_ok passed
    cases passed
    exact ⟨member, found, roots, rfl, loaded⟩

/-- A member is locked by the digests of its manifest and of the modules of its graph. -/
theorem lockMember_eq_ok {locked : WorkspaceLockedMember D}
    (passed : lockMember hash compiler workspace tree name = .ok locked) :
    ∃ member graph moduleLock manifest, workspace.byName name = some member ∧
      loadWorkspaceMemberGraph compiler workspace tree name = .ok graph ∧
      graph.root = member.entryPath ∧
      memberModuleLock hash compiler tree member graph = .ok moduleLock ∧
      sha256File hash tree member.manifest = .ok manifest ∧
      locked = ⟨name, member.root, member.version, member.entry, member.dependencies, manifest,
        moduleLock.lockDigest⟩ := by
  unfold lockMember at passed
  split at passed
  · cases passed
  · rename_i member found
    obtain ⟨graph, loaded, passed⟩ := bind_eq_ok passed
    obtain ⟨_, root, passed⟩ := bind_eq_ok passed
    obtain ⟨moduleLock, built, passed⟩ := bind_eq_ok passed
    obtain ⟨manifest, hashed, passed⟩ := bind_eq_ok passed
    cases passed
    exact ⟨member, graph, moduleLock, manifest, found, loaded, not_not.mp (raiseIf_eq_ok root), built,
      hashed, rfl⟩

variable {members : List (WorkspaceLockedMember D)} {names : List String}

theorem lockMembers_eq_ok (passed : lockMembers hash compiler workspace tree names = .ok members) :
    Forall₂ (fun name locked => lockMember hash compiler workspace tree name = .ok locked)
      names members := by
  induction names generalizing members with
  | nil =>
    cases passed
    exact .nil
  | cons name names ih =>
    unfold lockMembers at passed
    obtain ⟨locked, first, passed⟩ := bind_eq_ok passed
    obtain ⟨rest, others, passed⟩ := bind_eq_ok passed
    cases passed
    exact .cons first (ih others)

theorem lockMembers_of_forall (each : Forall₂
      (fun name locked => lockMember hash compiler workspace tree name = .ok locked) names members) :
    lockMembers hash compiler workspace tree names = .ok members := by
  induction each with
  | nil => rfl
  | cons first _ ih =>
    unfold lockMembers
    rw [bind_of_ok first, bind_of_ok ih]

/-- A lock that is built has the members in the build order, and the digest of what it says. -/
theorem buildWorkspacePackageLock_eq_ok {lock : WorkspaceLock D}
    (passed : buildWorkspacePackageLock hash compiler workspace tree = .ok lock) :
    Forall₂ (fun name locked => lockMember hash compiler workspace tree name = .ok locked)
        workspace.buildOrder lock.members ∧
      sha256File hash tree workspaceManifest = .ok lock.manifestSha256 ∧
      lock.buildOrder = workspace.buildOrder ∧
      lock.workspaceDigest = hash.workspaceLock lock.manifestSha256 lock.members lock.buildOrder := by
  unfold buildWorkspacePackageLock at passed
  obtain ⟨members, locked, passed⟩ := bind_eq_ok passed
  obtain ⟨manifest, hashed, passed⟩ := bind_eq_ok passed
  cases passed
  exact ⟨lockMembers_eq_ok locked, hashed, rfl, rfl⟩

theorem verifyFull_eq_ok [DecidableEq D] {locked current : WorkspaceLock D}
    (passed : verifyWorkspacePackageLockFull hash compiler workspace tree locked = .ok current) :
    current = locked ∧ buildWorkspacePackageLock hash compiler workspace tree = .ok locked := by
  unfold verifyWorkspacePackageLockFull at passed
  obtain ⟨built, building, passed⟩ := bind_eq_ok passed
  split at passed
  · rename_i same
    cases passed
    exact ⟨same, same ▸ building⟩
  · obtain ⟨_, -, passed⟩ := bind_eq_ok passed
    dsimp only at passed
    obtain ⟨_, -, passed⟩ := bind_eq_ok passed
    split at passed
    · cases passed
    · obtain ⟨_, -, passed⟩ := bind_eq_ok passed
      cases passed

theorem verifyFull_of_built [DecidableEq D] {locked : WorkspaceLock D}
    (built : buildWorkspacePackageLock hash compiler workspace tree = .ok locked) :
    verifyWorkspacePackageLockFull hash compiler workspace tree locked = .ok locked := by
  unfold verifyWorkspacePackageLockFull
  rw [bind_of_ok built, if_pos rfl]

variable {member : WorkspaceMember} {moduleLock : ModuleLock D}

theorem memberModuleLock_entry
    (passed : memberModuleLock hash compiler tree member graph = .ok moduleLock) :
    isSource (fileName member.entryPath) = true := by
  unfold memberModuleLock buildModuleLock at passed
  obtain ⟨_, -, passed⟩ := bind_eq_ok passed
  obtain ⟨modules, -, passed⟩ := bind_eq_ok passed
  obtain ⟨entrypoint, relative, -⟩ := bind_eq_ok passed
  exact (relativeModulePath_eq_ok relative).2

variable {modules : GraphModules Program}

theorem lockModules_eq_ok
    {locked : List (LockedModule D)} (passed : lockModules hash tree root modules = .ok locked) :
    Forall₂ (fun entry item => entry.1 = root ++ item.path ∧
      sha256File hash tree entry.1 = .ok item.sha256) modules locked := by
  induction modules generalizing locked with
  | nil =>
    cases passed
    exact .nil
  | cons entry modules ih =>
    obtain ⟨path, module⟩ := entry
    unfold lockModules at passed
    obtain ⟨item, first, passed⟩ := bind_eq_ok passed
    obtain ⟨rest, others, passed⟩ := bind_eq_ok passed
    cases passed
    refine .cons ?_ (ih others)
    unfold lockModule at first
    obtain ⟨relative, isRelative, first⟩ := bind_eq_ok first
    obtain ⟨imports, -, first⟩ := bind_eq_ok first
    obtain ⟨digest, hashed, first⟩ := bind_eq_ok first
    cases first
    exact ⟨relativeModulePath_eq_drop isRelative, hashed⟩

/-- The module lock of a member is the digest of its entry and of the modules of its graph. -/
theorem memberModuleLock_eq_ok
    (passed : memberModuleLock hash compiler tree member graph = .ok moduleLock) :
    ∃ root, member.entryPath = root ++ moduleLock.entrypoint ∧
      moduleLock.lockDigest = hash.moduleLock moduleLock.entrypoint moduleLock.modules ∧
      (∀ path ∈ graph.modules.map fst, ∃ item ∈ moduleLock.modules, path = root ++ item.path ∧
        sha256File hash tree path = .ok item.sha256) ∧
      ∀ item ∈ moduleLock.modules, root ++ item.path ∈ graph.modules.map fst ∧
        sha256File hash tree (root ++ item.path) = .ok item.sha256 := by
  unfold memberModuleLock buildModuleLock at passed
  obtain ⟨_, -, passed⟩ := bind_eq_ok passed
  obtain ⟨modules, locked, passed⟩ := bind_eq_ok passed
  obtain ⟨entrypoint, relative, passed⟩ := bind_eq_ok passed
  cases passed
  have each := lockModules_eq_ok locked
  refine ⟨_, relativeModulePath_eq_drop relative, rfl, ?_, ?_⟩
  · intro path member
    obtain ⟨entry, isEntry, rfl⟩ := mem_map.mp member
    obtain ⟨item, isItem, same⟩ := exists_right_of_forall₂ each isEntry
    exact ⟨item, (List.mem_insertionSort _).mpr isItem, same⟩
  · intro item member
    obtain ⟨entry, isEntry, same, hashed⟩ :=
      exists_left_of_forall₂ each ((List.mem_insertionSort _).mp member)
    rw [← same]
    exact ⟨mem_map_of_mem isEntry, hashed⟩

/-! ## Trees with the same modules -/

variable {other : Tree}

theorem lockModules_congr
    (same : ∀ path ∈ modules.map fst, other.contents path = tree.contents path) :
    lockModules hash other root modules = lockModules hash tree root modules := by
  induction modules with
  | nil => rfl
  | cons entry modules ih =>
    obtain ⟨path, module⟩ := entry
    obtain ⟨here, rest⟩ := forall_mem_cons.mp same
    have digest : sha256File hash other path = sha256File hash tree path := by
      unfold sha256File
      rw [here]
    unfold lockModules lockModule
    rw [ih rest, digest]

theorem memberModuleLock_congr
    (same : ∀ path ∈ graph.modules.map fst, other.contents path = tree.contents path) :
    memberModuleLock hash compiler other member graph =
      memberModuleLock hash compiler tree member graph := by
  unfold memberModuleLock buildModuleLock
  rw [lockModules_congr same]

end Inversion

end Locks

end Koschei.Workspace
