import Koschei.Workspace.Index

/-!
# Freshness of the source index

The index of a lock holds the digests of the sources of the members, and loading the
modules observes the contents of sources only, except for one question: whether there
is something beside a module under the name of a package that it imports. A directory
there is no source, so the index does not see it, and the loader refuses the import.
-/

namespace Koschei.Workspace

open Lib
open WorkspaceConfig (byName_eq_some names_distinct ownerFor_eq_ok)

section Freshness

variable {D Program : Type} {hash : Hashing D} {compiler : Compiler Program}
  {workspace : WorkspaceConfig} {verified tree : Tree} {sources : List (IndexedSource D)}

/-- Nothing stands beside a module under the name of a package that it imports, in the graphs of the
members. -/
def Unshadowed (compiler : Compiler Program) (workspace : WorkspaceConfig) (tree : Tree) : Prop :=
  ∀ member ∈ workspace.members, ∀ path program,
    (loader compiler workspace tree).Reaches member.entryPath path →
    readModule compiler tree path = .ok program → ∀ name ∈ compiler.imports program, ∀ owner,
      workspace.ownerFor path = .ok owner → (dependencyOf workspace owner name).isSome →
        tree.present (besidePath path name) = false

variable {path : Path}

theorem contents_agree (free : CollisionFree hash) (before : Snapshot hash verified workspace sources)
    (after : Snapshot hash tree workspace sources) (scope : InScope workspace path) :
    tree.contents path = verified.contents path := by
  cases found : tree.contents path with
  | some contents =>
    obtain ⟨-, other, found', same⟩ :=
      (before.mem path _).mp ((after.mem path _).mpr ⟨scope, contents, found, rfl⟩)
    rw [found', free.contents _ _ same]
  | none =>
    cases found' : verified.contents path with
    | none => rfl
    | some contents =>
      obtain ⟨-, other, impossible, -⟩ :=
        (after.mem path _).mp ((before.mem path _).mpr ⟨scope, contents, found', rfl⟩)
      rw [found] at impossible
      cases impossible

theorem readModule_eq_ok {program : Program} (read : readModule compiler tree path = .ok program) :
    ∃ contents, tree.contents path = some contents ∧ compiler.parse contents = .ok program := by
  unfold readModule at read
  split at read
  · cases read
  · exact ⟨_, ‹_›, read⟩

variable {member owner : WorkspaceMember} {contents : Bytes}

theorem ne_root (roots : ∀ member ∈ workspace.members, tree.node member.root = some .directory)
    (isMember : member ∈ workspace.members)
    (found : tree.contents path = some contents) : path ≠ member.root := by
  rintro rfl
  rw [Tree.contents_eq_some, roots member isMember] at found
  cases found

/-- The place of a source beside a module is under the root of its package. -/
theorem beside_under (name : String)
    (owned : workspace.ownerFor path = .ok owner) (apart : path ≠ owner.root) :
    owner.root <+: besidePath path name := by
  obtain ⟨-, rest, rfl⟩ := ownerFor_eq_ok owned
  have more : rest ≠ [] := by
    rintro rfl
    exact apart (append_nil _)
  unfold besidePath
  rw [List.dropLast_append_of_ne_nil more, append_assoc]
  exact prefix_append _ _

theorem beside_inScope (name : String)
    (owned : workspace.ownerFor path = .ok owner) (apart : path ≠ owner.root) :
    InScope workspace (besidePath path name) := by
  refine ⟨⟨owner, (ownerFor_eq_ok owned).1, beside_under name owned apart⟩, ?_⟩
  unfold besidePath fileName
  rw [getLast?_concat]
  exact isSource_append name

def EntriesAreSources (workspace : WorkspaceConfig) : Prop :=
  ∀ member ∈ workspace.members, isSource (fileName member.entryPath) = true

section

variable (entries : EntriesAreSources workspace)

include entries

theorem entry_inScope
    (isMember : member ∈ workspace.members) : InScope workspace member.entryPath :=
  ⟨⟨member, isMember, prefix_append _ _⟩, entries member isMember⟩

variable {name : String}

omit entries in
theorem dependencyOf_mem {owner dependency : WorkspaceMember}
    (found : dependencyOf workspace owner name = some dependency) : dependency ∈ workspace.members := by
  unfold dependencyOf at found
  split at found
  · exact (byName_eq_some.mp found).1
  · cases found

theorem resolved_inScope
    (roots : ∀ member ∈ workspace.members, verified.node member.root = some .directory)
    {path target : Path} (found : verified.contents path = some contents)
    (resolved : resolveImport workspace tree path name = .ok target) : InScope workspace target := by
  obtain ⟨owner, owned, -⟩ := bind_eq_ok resolved
  rcases resolveImport_beside owned resolved with rfl | ⟨dependency, isDependency, rfl⟩
  · exact beside_inScope name owned (ne_root roots (ownerFor_eq_ok owned).1 found)
  · exact entry_inScope entries (dependencyOf_mem isDependency)

/-- The modules that the entry of a member leads to are sources, when they are as in a tree where the roots
of the members are directories. -/
theorem reaches_inScope
    (roots : ∀ member ∈ workspace.members, verified.node member.root = some .directory)
    (isMember : member ∈ workspace.members)
    (same : ∀ path, (loader compiler workspace tree).Reaches member.entryPath path →
      InScope workspace path → tree.contents path = verified.contents path)
    (reached : (loader compiler workspace tree).Reaches member.entryPath path) :
    InScope workspace path := by
  induction reached with
  | root => exact entry_inScope entries isMember
  | step before read _ resolved ih =>
    obtain ⟨contents, found, -⟩ := readModule_eq_ok read
    exact resolved_inScope entries roots ((same _ before ih).symm.trans found) resolved

/-! ## The same graphs -/

/-- In the tree of a snapshot, the modules of a member are loaded as they were in the verified tree, when
nothing stands in the way of an import. -/
theorem loaders_agree (free : CollisionFree hash) (before : Snapshot hash verified workspace sources)
    (after : Snapshot hash tree workspace sources)
    (unshadowed : Unshadowed compiler workspace tree) (isMember : member ∈ workspace.members) :
    Loader.Agrees (loader compiler workspace verified) (loader compiler workspace tree)
      ((loader compiler workspace tree).Reaches member.entryPath) := by
  have same : ∀ path, (loader compiler workspace tree).Reaches member.entryPath path →
      tree.contents path = verified.contents path := fun path reached =>
    contents_agree free before after
      (reaches_inScope entries after.roots isMember (fun _ _ _ => rfl) reached)
  have reads : ∀ path program, (loader compiler workspace tree).Reaches member.entryPath path →
      readModule compiler verified path = .ok program → readModule compiler tree path = .ok program := by
    intro path program reached read
    unfold readModule at read ⊢
    rwa [same path reached]
  refine ⟨rfl, reads, ?_⟩
  rintro path program name target reached read isName resolved ⟨other, readable⟩
  have again : resolveImport workspace tree path name = .ok target → _ := fun resolved =>
    Loader.Reaches.step reached (reads path program reached read) isName resolved
  suffices found : resolveImport workspace tree path name = .ok target from ⟨found, again found⟩
  obtain ⟨contents, hasContents, -⟩ := readModule_eq_ok read
  obtain ⟨owner, owned, -⟩ := bind_eq_ok resolved
  have apart := ne_root before.roots (ownerFor_eq_ok owned).1 hasContents
  have under := beside_under name owned apart
  have beside := contents_agree free before after (beside_inScope name owned apart)
  have clear := unshadowed member isMember path program reached (reads path program reached read) name
    isName owner owned
  obtain ⟨targetContents, hasTarget, -⟩ := readModule_eq_ok readable
  by_cases dependent : (dependencyOf workspace owner name).isSome = true
  · -- The import is a package: nothing stands beside the module.
    obtain ⟨dependency, isDependency⟩ := isSome_iff_exists.mp dependent
    exact (resolveImport_package owned isDependency).mpr
      ⟨clear dependent, ((resolveImport_package owned isDependency).mp resolved).2⟩
  · -- The import is a source beside the module, in both trees.
    have independent := Option.not_isSome_iff_eq_none.mp dependent
    have isBeside : target = besidePath path name := by
      rcases resolveImport_beside owned resolved with same | ⟨dependency, impossible, -⟩
      · exact same
      · rw [independent] at impossible
        cases impossible
    subst isBeside
    have here : tree.contents (besidePath path name) = some targetContents := beside.trans hasTarget
    exact resolveImport_source owned independent (Tree.present_of_contents here)
      (Tree.not_symlink_of_contents here) under

omit entries in
/-- When the modules of a member are loaded, nothing stands in the way of an import. -/
theorem unshadowed_of_loaded
    (loaded : ∀ member ∈ workspace.members, ∃ modules,
      (loader compiler workspace tree).load compiler.depth [] member.entryPath
        (stem (fileName member.entryPath)) [] = .ok modules) :
    Unshadowed compiler workspace tree := by
  intro member isMember path program reached read name isName owner owned dependent
  obtain ⟨modules, ran⟩ := loaded member isMember
  have grown := Loader.load_grows ran
  have closed := grown.closed Loader.closed_nil
  obtain ⟨again, same, resolved⟩ := closed.reads path (closed.reaches grown.loaded reached)
  cases ok.inj (same.symm.trans read)
  obtain ⟨target, found, -⟩ := resolved name isName
  obtain ⟨dependency, isDependency⟩ := isSome_iff_exists.mp dependent
  exact ((resolveImport_package owned isDependency).mp found).1

/-! ## The same locks -/

variable {locked : WorkspaceLock D}

omit entries in
theorem entries_of_built
    (built : buildWorkspacePackageLock hash compiler workspace tree = .ok locked) :
    EntriesAreSources workspace := by
  intro member isMember
  have ordered := (workspace.complete member.name).mpr (mem_map_of_mem isMember)
  obtain ⟨item, -, passed⟩ := exists_right_of_forall₂ (buildWorkspacePackageLock_eq_ok built).1 ordered
  obtain ⟨found, graph, moduleLock, _, isFound, -, -, locked, -, -⟩ := lockMember_eq_ok passed
  have same := byName_eq_some.mp isFound
  have equal : found = member :=
    inj_on_of_nodup_map names_distinct same.1 isMember same.2
  exact equal ▸ memberModuleLock_entry locked

omit entries in
theorem loaded_of_built
    (built : buildWorkspacePackageLock hash compiler workspace tree = .ok locked) :
    ∀ member ∈ workspace.members, ∃ modules,
      (loader compiler workspace tree).load compiler.depth [] member.entryPath
        (stem (fileName member.entryPath)) [] = .ok modules := by
  intro member isMember
  have ordered := (workspace.complete member.name).mpr (mem_map_of_mem isMember)
  obtain ⟨item, -, passed⟩ := exists_right_of_forall₂ (buildWorkspacePackageLock_eq_ok built).1 ordered
  obtain ⟨-, graph, -, -, -, loaded, -, -, -, -⟩ := lockMember_eq_ok passed
  obtain ⟨found, isFound, -, -, ran⟩ := loadWorkspaceMemberGraph_eq_ok loaded
  have same := byName_eq_some.mp isFound
  have equal : found = member :=
    inj_on_of_nodup_map names_distinct same.1 isMember same.2
  subst equal
  exact ⟨graph.modules, ran⟩

theorem lockMember_agrees (free : CollisionFree hash)
    (before : Snapshot hash verified workspace sources)
    (after : Snapshot hash tree workspace sources) (unshadowed : Unshadowed compiler workspace tree)
    (agrees : Matches hash workspace tree locked) {item : WorkspaceLockedMember D}
    (isItem : item ∈ locked.members)
    (passed : lockMember hash compiler workspace verified name = .ok item) :
    lockMember hash compiler workspace tree name = .ok item := by
  obtain ⟨member, graph, moduleLock, manifest, found, loaded, root, lock, -, rfl⟩ :=
    lockMember_eq_ok passed
  have isMember := (byName_eq_some.mp found).1
  obtain ⟨same, isSame, roots, atRoot, ran⟩ := loadWorkspaceMemberGraph_eq_ok loaded
  cases some.inj (found.symm.trans isSame)
  -- The modules of the member are loaded again, and locked again.
  have again := Loader.load_agrees
    (loaders_agree entries free before after unshadowed isMember) .root Loader.closed_nil ran
  have loadedAgain : loadWorkspaceMemberGraph compiler workspace tree name = .ok graph := by
    unfold loadWorkspaceMemberGraph
    rw [found]
    dsimp only
    rw [bind_of_ok roots, bind_of_ok again, ← atRoot]
  have contents : ∀ path ∈ graph.modules.map fst,
      tree.contents path = verified.contents path := by
    intro path isModule
    rcases (Loader.load_grows ran).reached path isModule with impossible | reached
    · cases impossible
    · exact contents_agree free before after
        (reaches_inScope entries before.roots isMember (fun _ _ _ => rfl) reached)
  obtain ⟨named, isNamed, -, -, -, -, hashed⟩ := agrees.members _ isItem
  cases some.inj (found.symm.trans isNamed)
  unfold lockMember
  rw [found]
  dsimp only
  rw [bind_of_ok loadedAgain, bind_raiseIf (not_not.mpr root),
    memberModuleLock_congr contents, bind_of_ok lock, bind_of_ok hashed]

end

/-- The lock is built again in the tree of a snapshot exactly when nothing stands in the way of an
import. -/
theorem built_iff_unshadowed (free : CollisionFree hash)
    (before : Snapshot hash verified workspace sources)
    (after : Snapshot hash tree workspace sources)
    (built : buildWorkspacePackageLock hash compiler workspace verified = .ok locked)
    (agrees : Matches hash workspace tree locked) :
    buildWorkspacePackageLock hash compiler workspace tree = .ok locked ↔
      Unshadowed compiler workspace tree := by
  refine ⟨fun again => unshadowed_of_loaded (loaded_of_built again), fun unshadowed => ?_⟩
  obtain ⟨each, -, order, digest⟩ := buildWorkspacePackageLock_eq_ok built
  have entries := entries_of_built built
  have items : lockMembers hash compiler workspace tree workspace.buildOrder = .ok locked.members := by
    have all := forall₂_mem_right each
    exact lockMembers_of_forall (all.imp fun name item both =>
      lockMember_agrees entries free before after unshadowed agrees both.2 both.1)
  unfold buildWorkspacePackageLock
  rw [bind_of_ok items, bind_of_ok agrees.manifest, ← order, ← digest]

/-- Graphs that are loaded in two trees are the same, when the modules of the first one are sources with the
same contents in both. -/
theorem graphs_agree {first second : Tree} {graph graph' : ModuleGraph Program}
    (found : workspace.byName name = some member)
    (same : ∀ path, (loader compiler workspace first).Reaches member.entryPath path →
      first.contents path = second.contents path)
    (loaded : loadWorkspaceMemberGraph compiler workspace first name = .ok graph)
    (loaded' : loadWorkspaceMemberGraph compiler workspace second name = .ok graph') :
    graph = graph' := by
  obtain ⟨_, isMember, -, root, ran⟩ := loadWorkspaceMemberGraph_eq_ok loaded
  cases some.inj (found.symm.trans isMember)
  obtain ⟨_, isMember, -, root', ran'⟩ := loadWorkspaceMemberGraph_eq_ok loaded'
  cases some.inj (found.symm.trans isMember)
  have modules : graph.modules = graph'.modules := by
    refine @Loader.load_deterministic Path String Program Fault _ _ (loader compiler workspace first)
      (loader compiler workspace second) _ _ _ _ _ rfl ?_ ?_ ran ran'
    · intro path program program' reached read read'
      have again : readModule compiler second path = .ok program := by
        have read : readModule compiler first path = .ok program := read
        unfold readModule at read ⊢
        rwa [← same path reached]
      exact ok.inj (again.symm.trans read')
    · exact fun path name target target' resolved resolved' =>
        resolveImport_deterministic resolved resolved'
  cases graph
  cases graph'
  cases modules
  cases root
  cases root'
  rfl

end Freshness

/-! ## Runs of the verification -/

section Runs

variable {D Program : Type} [DecidableEq D]

/-- A verification: the workspace, its files and the lock. -/
structure Verification (D : Type) where
  workspace : WorkspaceConfig
  tree : Tree
  locked : WorkspaceLock D

/-- A verification with an index, and the index after it. -/
def verification (hash : Hashing D) (compiler : Compiler Program) (index : Index D)
    (call : Verification D) : Checked (WorkspaceLock D) × Index D :=
  verifyOrCreateLockIndex hash call.workspace call.tree compiler index call.locked

/-- A lock whose digest is the one of what it says, as `load_workspace_lock` accepts it. -/
def Sealed (hash : Hashing D) (locked : WorkspaceLock D) : Prop :=
  locked.workspaceDigest = hash.workspaceLock locked.manifestSha256 locked.members locked.buildOrder

/-- Every entry of an index has the sources of a tree in which the lock of its digest was verified in
full. -/
def Published (hash : Hashing D) (compiler : Compiler Program) (index : Index D) : Prop :=
  ∀ key manifest, index.lookup key = some manifest →
    ∃ workspace tree locked, locked.workspaceDigest = key ∧
      buildWorkspacePackageLock hash compiler workspace tree = .ok locked ∧
      snapshotWorkspaceSources hash tree workspace = .ok manifest.sources

variable {hash : Hashing D} {compiler : Compiler Program} {workspace : WorkspaceConfig} {tree :
  Tree}
  {index : Index D} {locked : WorkspaceLock D}

omit [DecidableEq D] in
theorem sealed_of_built (built : buildWorkspacePackageLock hash compiler workspace tree = .ok locked) :
    Sealed hash locked :=
  (buildWorkspacePackageLock_eq_ok built).2.2.2

theorem verifyWithoutIndex_eq_ok {current : WorkspaceLock D} {sources : List (IndexedSource D)}
    (passed : verifyWithoutIndex hash workspace tree compiler locked = .ok (current, sources)) :
    current = locked ∧ buildWorkspacePackageLock hash compiler workspace tree = .ok locked ∧
      snapshotWorkspaceSources hash tree workspace = .ok sources := by
  unfold verifyWithoutIndex at passed
  obtain ⟨before, -, passed⟩ := bind_eq_ok passed
  obtain ⟨built, full, passed⟩ := bind_eq_ok passed
  obtain ⟨after, snapshot, passed⟩ := bind_eq_ok passed
  obtain ⟨_, -, passed⟩ := bind_eq_ok passed
  obtain ⟨_, -, passed⟩ := bind_eq_ok passed
  cases passed
  obtain ⟨same, building⟩ := verifyFull_eq_ok full
  exact ⟨same, building, snapshot⟩

variable {manifest : IndexManifest D}

theorem verifyIndexEntry_eq_ok {key : D}
    (passed : verifyIndexEntry hash workspace tree locked key manifest = .ok ()) :
    Matches hash workspace tree locked ∧
      snapshotWorkspaceSources hash tree workspace = .ok manifest.sources := by
  unfold verifyIndexEntry at passed
  iterate 6 obtain ⟨_, -, passed⟩ := bind_eq_ok passed
  obtain ⟨_, metadata, passed⟩ := bind_eq_ok passed
  obtain ⟨current, snapshot, passed⟩ := bind_eq_ok passed
  exact ⟨verifyWorkspaceMetadata_eq_ok metadata, not_not.mp (raiseIf_eq_ok passed) ▸ snapshot⟩

theorem published_verification (published : Published hash compiler index)
    (call : Verification D) : Published hash compiler (verification hash compiler index call).2 := by
  unfold verification verifyOrCreateLockIndex
  split
  · exact published
  · split
    · exact published
    · rename_i current sources passed
      obtain ⟨rfl, built, snapshot⟩ := verifyWithoutIndex_eq_ok passed
      have after : Published hash compiler (publishIndex hash index call.locked sources) := by
        unfold publishIndex
        split
        · exact published
        · intro key manifest found
          rw [lookup_append] at found
          rcases Option.or_eq_some_iff.mp found with earlier | ⟨-, here⟩
          · exact published key manifest earlier
          · obtain ⟨same, rfl⟩ := mem_singleton.mp (mem_of_lookup_eq_some here) |> Prod.mk.inj
            exact ⟨call.workspace, call.tree, call.locked, same.symm, built, snapshot⟩
      dsimp only
      split
      · exact after
      · exact after

theorem published_run (calls : List (Verification D)) :
    Published hash compiler (finalState (verification hash compiler) [] calls) := by
  have empty : Published hash compiler [] := fun _ _ impossible => nomatch impossible
  refine (trace_invariant empty fun moment member before => ?_).2
  have after := published_verification before moment.call
  rwa [step_of_mem_trace member] at after

/-- A lock that its index entry accepts was verified in full, in files with the sources there are. -/
theorem original_of_hit (free : CollisionFree hash) (published : Published hash compiler index)
    (isSealed : Sealed hash locked) (found : index.lookup locked.workspaceDigest = some manifest)
    (accepted : verifyIndexEntry hash workspace tree locked locked.workspaceDigest manifest = .ok ()) :
    ∃ original, buildWorkspacePackageLock hash compiler workspace original = .ok locked ∧
      Snapshot hash original workspace manifest.sources ∧
      Snapshot hash tree workspace manifest.sources ∧ Matches hash workspace tree locked := by
  obtain ⟨agrees, after⟩ := verifyIndexEntry_eq_ok accepted
  obtain ⟨other, original, first, digest, built, before⟩ := published _ _ found
  -- The lock of the entry is this lock, and its workspace this workspace.
  obtain ⟨manifests, members, order⟩ := free.workspaceLock _ _ _ _ _ _
    ((sealed_of_built built).symm.trans (digest.trans isSealed))
  have same : first = locked := by
    cases first
    cases locked
    simp_all
  subst same
  have equal := agrees.workspace_eq (matches_of_built built)
  subst equal
  exact ⟨original, built, snapshot_eq_ok before, snapshot_eq_ok after, agrees⟩

/-- A lock that is accepted, with an index entry or without, was verified in full, in files with the
sources there are. -/
theorem original_of_accepted (free : CollisionFree hash) (published : Published hash compiler index)
    (isSealed : Sealed hash locked) {accepted : WorkspaceLock D} {after : Index D}
    (passed : verifyOrCreateLockIndex hash workspace tree compiler index locked = (.ok accepted, after)) :
    accepted = locked ∧ ∃ original sources,
      buildWorkspacePackageLock hash compiler workspace original = .ok locked ∧
        Snapshot hash original workspace sources ∧ Snapshot hash tree workspace sources := by
  unfold verifyOrCreateLockIndex at passed
  split at passed
  · rename_i manifest found
    obtain ⟨result, -⟩ := Prod.mk.inj passed
    obtain ⟨_, entry, same⟩ := bind_eq_ok result
    cases same
    obtain ⟨original, built, before, after, -⟩ := original_of_hit free published isSealed found entry
    exact ⟨rfl, original, manifest.sources, built, before, after⟩
  · split at passed
    · cases passed
    · rename_i current sources verified
      obtain ⟨rfl, built, snapshot⟩ := verifyWithoutIndex_eq_ok verified
      dsimp only at passed
      split at passed
      · cases passed
      · obtain ⟨result, -⟩ := Prod.mk.inj passed
        obtain ⟨_, -, same⟩ := bind_eq_ok result
        cases same
        exact ⟨rfl, tree, sources, built, snapshot_eq_ok snapshot, snapshot_eq_ok snapshot⟩

/-- After any verifications from an empty index, a lock that its index entry accepts is accepted in full
exactly when nothing stands beside a module under the name of a package that it imports. -/
theorem index_hit_verified_iff (hash : Hashing D) (free : CollisionFree hash)
    (compiler : Compiler Program) (calls : List (Verification D)) (workspace : WorkspaceConfig)
    (tree : Tree) (locked : WorkspaceLock D) (isSealed : Sealed hash locked)
    (manifest : IndexManifest D)
    (found : (finalState (verification hash compiler) [] calls).lookup locked.workspaceDigest =
      some manifest)
    (accepted : verifyIndexEntry hash workspace tree locked locked.workspaceDigest manifest = .ok ()) :
    verifyWorkspacePackageLockFull hash compiler workspace tree locked = .ok locked ↔
      Unshadowed compiler workspace tree := by
  obtain ⟨original, built, before, after, agrees⟩ :=
    original_of_hit free (published_run calls) isSealed found accepted
  rw [← built_iff_unshadowed free before after built agrees]
  exact ⟨fun passed => (verifyFull_eq_ok passed).2, verifyFull_of_built⟩

end Runs

/-! ## A directory beside a module -/

/-- A digest that keeps what it is the digest of. -/
inductive Kept where
  | bytes (contents : Bytes)
  | text (text : String)
  | none
  | pair (first second : Kept)
  deriving DecidableEq

namespace Kept

def list {α : Type} (kept : α → Kept) : List α → Kept
  | [] => .none
  | a :: as => .pair (kept a) (list kept as)

theorem list_inj {α : Type} {kept : α → Kept} (inj : ∀ a b, kept a = kept b → a = b) :
    ∀ as bs, list kept as = list kept bs → as = bs
  | [], [], _ => rfl
  | a :: as, b :: bs, same => by
    unfold list at same
    obtain ⟨first, rest⟩ := Kept.pair.inj same
    rw [inj a b first, list_inj inj as bs rest]

def path : List String → Kept := list .text

def pathItem (item : String × Path) : Kept := .pair (.text item.1) (path item.2)

def lockedModule (item : LockedModule Kept) : Kept :=
  .pair (path item.path) (.pair item.sha256 (list pathItem item.imports))

def lockedMember (item : WorkspaceLockedMember Kept) : Kept :=
  .pair (.text item.name) (.pair (path item.root) (.pair (.text item.version)
    (.pair (path item.entry) (.pair (path item.dependencies)
      (.pair item.manifestSha256 item.moduleLockDigest)))))

def source (item : IndexedSource Kept) : Kept := .pair (path item.path) item.sha256

def hashing : Hashing Kept where
  contents := .bytes
  moduleLock := fun entrypoint modules => .pair (path entrypoint) (list lockedModule modules)
  workspaceLock := fun manifest members order =>
    .pair manifest (.pair (list lockedMember members) (path order))
  index := fun digest manifest sources => .pair digest (.pair manifest (list source sources))

theorem path_inj : ∀ first second, path first = path second → first = second :=
  list_inj fun _ _ same => Kept.text.inj same

theorem lockedMember_inj (first second : WorkspaceLockedMember Kept)
    (same : lockedMember first = lockedMember second) : first = second := by
  obtain ⟨name, rest⟩ := Kept.pair.inj same
  obtain ⟨root, rest⟩ := Kept.pair.inj rest
  obtain ⟨version, rest⟩ := Kept.pair.inj rest
  obtain ⟨entry, rest⟩ := Kept.pair.inj rest
  obtain ⟨dependencies, rest⟩ := Kept.pair.inj rest
  obtain ⟨manifest, digest⟩ := Kept.pair.inj rest
  cases first
  cases second
  cases path_inj _ _ root
  cases path_inj _ _ entry
  cases path_inj _ _ dependencies
  cases Kept.text.inj name
  cases Kept.text.inj version
  cases manifest
  cases digest
  rfl

theorem pathItem_inj (first second : String × Path) (same : pathItem first = pathItem second) :
    first = second := by
  obtain ⟨name, target⟩ := Kept.pair.inj same
  exact Prod.ext (Kept.text.inj name) (path_inj _ _ target)

theorem lockedModule_inj (first second : LockedModule Kept)
    (same : lockedModule first = lockedModule second) : first = second := by
  obtain ⟨path, rest⟩ := Kept.pair.inj same
  obtain ⟨digest, imports⟩ := Kept.pair.inj rest
  cases first
  cases second
  cases path_inj _ _ path
  cases digest
  cases list_inj pathItem_inj _ _ imports
  rfl

theorem collisionFree : CollisionFree hashing where
  contents := fun _ _ same => Kept.bytes.inj same
  workspaceLock := by
    intro manifest members order manifest' members' order' same
    obtain ⟨first, rest⟩ := Kept.pair.inj same
    obtain ⟨second, third⟩ := Kept.pair.inj rest
    exact ⟨first, list_inj lockedMember_inj _ _ second, path_inj _ _ third⟩
  moduleLock := by
    intro entrypoint modules entrypoint' modules' same
    obtain ⟨first, second⟩ := Kept.pair.inj same
    exact ⟨path_inj _ _ first, list_inj lockedModule_inj _ _ second⟩

end Kept

/-- A program is its source; the one of the byte 1 imports `util`. -/
def plainCompiler : Compiler Bytes where
  parse := .ok
  imports := fun contents => if contents = [1] then ["util"] else []
  checkGraph := fun _ => .ok ()
  depth := 100

theorem pairComplete (name : String) : name ∈ ["util", "app"] ↔
    name ∈ ([⟨"app", ["app"], "0.1.0", ["main.ks"], ["util"]⟩,
      ⟨"util", ["util"], "0.1.0", ["main.ks"], []⟩] : List WorkspaceMember).map
        WorkspaceMember.name := by
  simp [or_comm]

theorem pairSorted : (([⟨"app", ["app"], "0.1.0", ["main.ks"], ["util"]⟩,
    ⟨"util", ["util"], "0.1.0", ["main.ks"], []⟩] : List WorkspaceMember).map
      WorkspaceMember.name).Pairwise (· < ·) := by
  decide

/-- A package that depends on another one. -/
def pairWorkspace : WorkspaceConfig where
  members := [⟨"app", ["app"], "0.1.0", ["main.ks"], ["util"]⟩,
    ⟨"util", ["util"], "0.1.0", ["main.ks"], []⟩]
  buildOrder := ["util", "app"]
  sorted := pairSorted
  complete := pairComplete

/-- The files of the packages, with or without a directory beside the module that imports the other
package. -/
def pairEntries (shadowed : Bool) : List (Path × Node) :=
  [(["koschei.workspace.toml"], .file [7]), (["app"], .directory),
    (["app", "koschei.toml"], .file [8]), (["app", "main.ks"], .file [1]), (["util"], .directory),
    (["util", "koschei.toml"], .file [9]), (["util", "main.ks"], .file [2])] ++
      if shadowed then [(["app", "util.ks"], .directory)] else []

theorem pairDistinct : ∀ shadowed, ((pairEntries shadowed).map fst).Nodup := by decide

theorem pairParents : ∀ shadowed, ∀ path ∈ (pairEntries shadowed).map fst, path ≠ [] ∧
    (path.dropLast = [] ∨ (path.dropLast, Node.directory) ∈ pairEntries shadowed) := by decide

def pairTree (shadowed : Bool) : Tree :=
  ⟨pairEntries shadowed, pairDistinct shadowed, pairParents shadowed⟩

/-- The lock of the packages. -/
def pairLock : WorkspaceLock Kept :=
  match buildWorkspacePackageLock Kept.hashing plainCompiler pairWorkspace (pairTree false) with
  | .ok lock => lock
  | .error _ => ⟨.none, [], [], .none⟩

/-- A verification of the packages without the directory. -/
def pairVerification : Verification Kept := ⟨pairWorkspace, pairTree false, pairLock⟩

/-- The index after it. -/
def pairIndex : Index Kept := finalState (verification Kept.hashing plainCompiler) [] [pairVerification]

/-- Its entry of the lock. -/
def pairManifest : IndexManifest Kept :=
  (pairIndex.lookup pairLock.workspaceDigest).getD ⟨.none, .none, 0, [], .none⟩

theorem pairLock_built : buildWorkspacePackageLock Kept.hashing plainCompiler pairWorkspace
    (pairTree false) = .ok pairLock := by decide +kernel

theorem unshadowed_hit_verified :
    verifyWorkspacePackageLockFull Kept.hashing plainCompiler pairWorkspace (pairTree false) pairLock =
      .ok pairLock :=
  (index_hit_verified_iff Kept.hashing Kept.collisionFree plainCompiler [pairVerification]
    pairWorkspace (pairTree false) pairLock (sealed_of_built pairLock_built) pairManifest
    (by decide +kernel) (by decide +kernel)).mpr (unshadowed_of_loaded (loaded_of_built pairLock_built))

theorem shadowed_hit_refused : CollisionFree Kept.hashing ∧ Sealed Kept.hashing pairLock ∧
      pairIndex.lookup pairLock.workspaceDigest = some pairManifest ∧
      verifyIndexEntry Kept.hashing pairWorkspace (pairTree true) pairLock pairLock.workspaceDigest
        pairManifest = .ok () ∧
      verifyWorkspacePackageLockFull Kept.hashing plainCompiler pairWorkspace (pairTree true) pairLock =
        .error (.module "KS1601" ("Belirsiz import 'util': hem paket-içi util.ks dosyası hem de aynı adlı " ++
          "workspace dependency var. Gölgeleme güvenlik nedeniyle kapalıdır.")) := by
  refine ⟨Kept.collisionFree, sealed_of_built pairLock_built, ?_, ?_, ?_⟩
  all_goals
    decide +kernel

end Koschei.Workspace
