import Koschei.Lib.Runs
import Koschei.Workspace.Lock

/-!
# The source index of a lock

`workspace_lock_index.py` keeps, for a lock that was verified in full, the digests of
the sources of the members. A later verification of the lock compares the sources
with these and the manifests with the lock, and loads no module.
-/

namespace Koschei.Workspace

open Lib

section Index

variable {D : Type} [DecidableEq D]

def maxIndexSources : Nat := 2000000

/-- `_validate_source_path`. -/
def validateSourcePath (path : Path) : Checked Path :=
  if ".." ∈ path ∨ suffix (fileName path) ≠ ".ks" then
    .error (.workspace ("unsafe workspace lock index source path: " ++ posix path))
  else .ok path

/-! ## Snapshots -/

section Snapshots

variable (hash : Hashing D) (tree : Tree)

def observeSource (path : Path) (contents : Bytes) (observed : List (Path × D)) :
    Checked (List (Path × D)) := do
  let relative ← validateSourcePath path
  raiseIf (observed.lookup relative ≠ none ∧ observed.lookup relative ≠ some (hash.contents contents))
    (.workspace ("workspace source identity is ambiguous: " ++ posix relative))
  let observed := Dictionary.put observed relative (hash.contents contents)
  raiseIf (maxIndexSources < observed.length)
    (.workspace "workspace source count exceeds the 2000000-file lock-index budget")
  .ok observed

def observeEntry (path : Path) (observed : List (Path × D)) : Node → Checked (List (Path × D))
  | .directory => .ok observed
  | .link (some .directory) =>
    .error (.workspace ("workspace source tree contains a symlinked directory: " ++ posix path))
  | .file contents =>
    if isSource (fileName path) then observeSource hash path contents observed else .ok observed
  | .special | .link _ =>
    if isSource (fileName path) then
      .error (.workspace ("workspace source tree contains a non-regular .ks file: " ++ posix path))
    else .ok observed

def observeEntries : List (Path × Node) → List (Path × D) → Checked (List (Path × D))
  | [], observed => .ok observed
  | (path, node) :: entries, observed => do
    let observed ← observeEntry hash path observed node
    observeEntries entries observed

def observeMembers : List WorkspaceMember → List (Path × D) → Checked (List (Path × D))
  | [], observed => .ok observed
  | member :: members, observed => do
    raiseIf (tree.node member.root ≠ some .directory)
      (.workspace ("workspace member root is not a real directory: " ++ posix member.root))
    let observed ← observeEntries hash (tree.walk member.root) observed
    observeMembers members observed

/-- `snapshot_workspace_sources`. -/
def snapshotWorkspaceSources (workspace : WorkspaceConfig) : Checked (List (IndexedSource D)) := do
  let observed ← observeMembers hash tree workspace.members []
  let ordered := (observed.insertionSort fun first second => posix first.1 ≤ posix second.1).map
    fun source => (⟨source.1, source.2⟩ : IndexedSource D)
  raiseIf (ordered = []) (.workspace "workspace lock index cannot represent an empty source tree")
  .ok ordered

end Snapshots

/-- What is observed of the sources of entries: their digests, once the other entries are no sources and
lead nowhere. -/
structure Observes (hash : Hashing D) (entries : List (Path × Node)) (before after : List (Path × D)) :
    Prop where
  real : ∀ path node, (path, node) ∈ entries → isSource (fileName path) = true →
    node = .directory ∨ ∃ contents, node = .file contents
  kept : ∀ path digest, before.lookup path = some digest → after.lookup path = some digest
  observed : ∀ path contents, (path, .file contents) ∈ entries → isSource (fileName path) = true →
    after.lookup path = some (hash.contents contents)
  only : ∀ path digest, after.lookup path = some digest → before.lookup path = some digest ∨
    ∃ contents, (path, .file contents) ∈ entries ∧ isSource (fileName path) = true ∧
      digest = hash.contents contents
  distinct : (before.map fst).Nodup → (after.map fst).Nodup

section Spec

variable {hash : Hashing D} {tree : Tree} {observed result : List (Path × D)}

omit [DecidableEq D] in
theorem Observes.refl (observed : List (Path × D)) : Observes hash [] observed observed where
  real := fun _ _ impossible => absurd impossible not_mem_nil
  kept := fun _ _ => id
  observed := fun _ _ impossible => absurd impossible not_mem_nil
  only := fun _ _ => .inl
  distinct := id

omit [DecidableEq D] in
theorem Observes.trans {first second : List (Path × Node)} {between : List (Path × D)}
    (before : Observes hash first observed between) (after : Observes hash second between result) :
    Observes hash (first ++ second) observed result where
  real := fun path node member => (mem_append.mp member).elim (before.real path node)
    (after.real path node)
  kept := fun path digest found => after.kept path digest (before.kept path digest found)
  observed := fun path contents member source => (mem_append.mp member).elim
    (fun early => after.kept _ _ (before.observed path contents early source))
    (fun late => after.observed path contents late source)
  only := by
    intro path digest found
    rcases after.only path digest found with earlier | ⟨contents, member, source, same⟩
    · rcases before.only path digest earlier with first | ⟨contents, member, source, same⟩
      · exact .inl first
      · exact .inr ⟨contents, mem_append_left _ member, source, same⟩
    · exact .inr ⟨contents, mem_append_right _ member, source, same⟩
  distinct := fun distinct => after.distinct (before.distinct distinct)

theorem validateSourcePath_eq_ok {path relative : Path}
    (passed : validateSourcePath path = .ok relative) : relative = path := by
  unfold validateSourcePath at passed
  split at passed
  · cases passed
  · cases passed
    rfl

theorem observeSource_observes {path : Path} {contents : Bytes}
    (source : isSource (fileName path) = true)
    (passed : observeSource hash path contents observed = .ok result) :
    Observes hash [(path, .file contents)] observed result := by
  unfold observeSource at passed
  obtain ⟨relative, valid, passed⟩ := bind_eq_ok passed
  obtain ⟨_, unambiguous, passed⟩ := bind_eq_ok passed
  obtain ⟨_, -, passed⟩ := bind_eq_ok passed
  cases validateSourcePath_eq_ok valid
  cases passed
  have same := not_and_or.mp (raiseIf_eq_ok unambiguous)
  refine ⟨?_, ?_, ?_, ?_, ?_⟩
  · intro other node member _
    cases mem_singleton.mp member
    exact .inr ⟨contents, rfl⟩
  · intro other digest found
    rw [lookup_put_eq]
    split
    · rename_i here
      subst here
      rcases same with absent | known
      · rw [not_not.mp absent] at found
        cases found
      · exact (not_not.mp known).symm.trans found
    · exact found
  · intro other contents member _
    cases mem_singleton.mp member
    rw [lookup_put_eq, if_pos rfl]
  · intro other digest found
    rw [lookup_put_eq] at found
    split at found
    · rename_i here
      subst here
      exact .inr ⟨contents, mem_singleton_self _, source, (some.inj found).symm⟩
    · exact .inl found
  · intro distinct
    rw [keys_put]
    split
    · exact distinct
    · exact List.nodup_append_comm.mp (distinct.cons ‹_›)

omit [DecidableEq D] in
theorem Observes.skip {path : Path} {node : Node}
    (skipped : isSource (fileName path) = true → node = .directory) :
    Observes hash [(path, node)] observed observed where
  real := by
    intro other kind member source
    cases mem_singleton.mp member
    exact .inl (skipped source)
  kept := fun _ _ => id
  observed := by
    intro other contents member source
    cases mem_singleton.mp member
    cases skipped source
  only := fun _ _ => .inl
  distinct := id

theorem observeEntry_observes {path : Path} {node : Node}
    (passed : observeEntry hash path observed node = .ok result) :
    Observes hash [(path, node)] observed result := by
  unfold observeEntry at passed
  split at passed
  · cases passed
    exact .skip fun _ => rfl
  · cases passed
  · split at passed
    · exact observeSource_observes ‹_› passed
    · cases passed
      exact .skip fun source => absurd source ‹_›
  · split at passed
    · cases passed
    · cases passed
      exact .skip fun source => absurd source ‹_›
  · split at passed
    · cases passed
    · cases passed
      exact .skip fun source => absurd source ‹_›

theorem observeEntries_observes {entries : List (Path × Node)}
    (passed : observeEntries hash entries observed = .ok result) :
    Observes hash entries observed result := by
  induction entries generalizing observed with
  | nil =>
    cases passed
    exact .refl _
  | cons entry entries ih =>
    unfold observeEntries at passed
    obtain ⟨between, first, passed⟩ := bind_eq_ok passed
    exact (observeEntry_observes first).trans (ih passed)

theorem observeMembers_observes {members : List WorkspaceMember}
    (passed : observeMembers hash tree members observed = .ok result) :
    (∀ member ∈ members, tree.node member.root = some .directory) ∧
      Observes hash (members.flatMap fun member => tree.walk member.root) observed result := by
  induction members generalizing observed with
  | nil =>
    cases passed
    exact ⟨forall_mem_nil _, .refl _⟩
  | cons member members ih =>
    unfold observeMembers at passed
    obtain ⟨_, real, passed⟩ := bind_eq_ok passed
    obtain ⟨between, first, passed⟩ := bind_eq_ok passed
    obtain ⟨others, rest⟩ := ih passed
    exact ⟨forall_mem_cons.mpr ⟨not_not.mp (raiseIf_eq_ok real), others⟩,
      (observeEntries_observes first).trans rest⟩

/-- The sources of a workspace: those under the roots of its members. -/
def InScope (workspace : WorkspaceConfig) (path : Path) : Prop :=
  (∃ member ∈ workspace.members, member.root <+: path) ∧ isSource (fileName path) = true

/-- What a snapshot says: the roots of the members are directories, the sources are regular files or
directories, and the digests are those of the files. -/
structure Snapshot (hash : Hashing D) (tree : Tree) (workspace : WorkspaceConfig)
    (sources : List (IndexedSource D)) : Prop where
  roots : ∀ member ∈ workspace.members, tree.node member.root = some .directory
  real : ∀ path node, InScope workspace path → (path, node) ∈ tree.entries →
    node = .directory ∨ ∃ contents, node = .file contents
  mem : ∀ path digest, (⟨path, digest⟩ : IndexedSource D) ∈ sources ↔ InScope workspace path ∧
    ∃ contents, tree.contents path = some contents ∧ digest = hash.contents contents

theorem snapshot_eq_ok {workspace : WorkspaceConfig} {sources : List (IndexedSource D)}
    (passed : snapshotWorkspaceSources hash tree workspace = .ok sources) :
    Snapshot hash tree workspace sources := by
  unfold snapshotWorkspaceSources at passed
  obtain ⟨observed, observes, passed⟩ := bind_eq_ok passed
  obtain ⟨_, -, passed⟩ := bind_eq_ok passed
  cases passed
  obtain ⟨roots, spec⟩ := observeMembers_observes observes
  have among : ∀ path node, (path, node) ∈ (workspace.members.flatMap fun member =>
      tree.walk member.root) ↔
        (path, node) ∈ tree.entries ∧ ∃ member ∈ workspace.members, member.root <+: path := by
    intro path node
    rw [mem_flatMap]
    constructor
    · rintro ⟨member, isMember, walked⟩
      obtain ⟨entry, under⟩ := Tree.mem_walk.mp walked
      exact ⟨entry, member, isMember, under⟩
    · rintro ⟨entry, member, isMember, under⟩
      exact ⟨member, isMember, Tree.mem_walk.mpr ⟨entry, under⟩⟩
  have distinct := spec.distinct nodup_nil
  refine ⟨roots, ?_, ?_⟩
  · rintro path node ⟨scope, source⟩ entry
    exact spec.real path node ((among path node).mpr ⟨entry, scope⟩) source
  · intro path digest
    have listed : (⟨path, digest⟩ : IndexedSource D) ∈
        (observed.insertionSort fun first second => posix first.1 ≤ posix second.1).map
          (fun source => (⟨source.1, source.2⟩ : IndexedSource D)) ↔
        observed.lookup path = some digest := by
      rw [lookup_eq_some_iff_mem distinct, mem_map]
      constructor
      · rintro ⟨source, member, same⟩
        cases same
        exact (List.mem_insertionSort _).mp member
      · exact fun member => ⟨(path, digest), (List.mem_insertionSort _).mpr member, rfl⟩
    rw [listed]
    constructor
    · intro found
      rcases spec.only path digest found with impossible | ⟨contents, member, source, same⟩
      · cases impossible
      · obtain ⟨entry, scope⟩ := (among path _).mp member
        exact ⟨⟨scope, source⟩, contents, Tree.contents_eq_some_iff_mem.mpr entry, same⟩
    · rintro ⟨⟨scope, source⟩, contents, found, rfl⟩
      exact spec.observed path contents
        ((among path _).mpr ⟨Tree.contents_eq_some_iff_mem.mp found, scope⟩) source

end Spec

/-! ## The index -/

/-- The manifest of an index entry. -/
structure IndexManifest (D : Type) where
  workspaceDigest : D
  workspaceManifestSha256 : D
  sourceCount : Nat
  sources : List (IndexedSource D)
  indexDigest : D
  deriving DecidableEq

/-- The entries of the index, under the digests of locks. -/
abbrev Index (D : Type) : Type := List (D × IndexManifest D)

/-- `_parse_sources`. -/
def parseSources (sources : List (IndexedSource D)) : Checked Unit := do
  raiseIf (sources = []) (.workspace "workspace lock index sources must be a non-empty array")
  raiseIf (maxIndexSources < sources.length)
    (.workspace "workspace lock index source count exceeds its budget")
  raiseIf (∃ source ∈ sources, validateSourcePath source.path ≠ .ok source.path)
    (.workspace "unsafe workspace lock index source path")
  raiseIf (¬ (sources.map fun source => posix source.path).Pairwise (· < ·))
    (.workspace "workspace lock index sources are not canonical")

section Verification

variable (hash : Hashing D) (workspace : WorkspaceConfig) (tree : Tree)

/-- What a locked member says of the member of its name. -/
def checkMember (locked : WorkspaceLockedMember D) : Checked Unit :=
  match workspace.byName locked.name with
  | none => .error (.system "KeyError")
  | some member => do
    let changed := Fault.workspace ("workspace member identity changed: " ++ locked.name)
    raiseIf (member.root ≠ locked.root ∨ member.version ≠ locked.version ∨
      member.entry ≠ locked.entry ∨ member.dependencies ≠ locked.dependencies) changed
    let manifest ← sha256File hash tree member.manifest
    raiseIf (manifest ≠ locked.manifestSha256) changed

def checkMembers : List (WorkspaceLockedMember D) → Checked Unit
  | [] => .ok ()
  | locked :: members => do
    checkMember hash workspace tree locked
    checkMembers members

/-- `_verify_workspace_metadata`. -/
def verifyWorkspaceMetadata (locked : WorkspaceLock D) : Checked Unit := do
  let manifest ← sha256File hash tree workspaceManifest
  raiseIf (manifest ≠ locked.manifestSha256) (.workspace "workspace manifest digest changed")
  raiseIf (workspace.buildOrder ≠ locked.buildOrder)
    (.workspace "workspace dependency build order changed")
  let names := workspace.members.map WorkspaceMember.name
  let lockedNames := locked.members.map WorkspaceLockedMember.name
  raiseIf (¬ (names ⊆ lockedNames ∧ lockedNames ⊆ names)) (.workspace "workspace member set changed")
  checkMembers hash workspace tree locked.members

/-- `_verify_index_entry`, of an entry with a manifest. -/
def verifyIndexEntry (locked : WorkspaceLock D) (key : D) (manifest : IndexManifest D) :
    Checked Unit := do
  raiseIf (manifest.workspaceDigest ≠ locked.workspaceDigest)
    (.workspace "workspace lock index identity mismatch")
  raiseIf (key ≠ locked.workspaceDigest)
    (.workspace "workspace lock index directory key mismatch")
  raiseIf (manifest.workspaceManifestSha256 ≠ locked.manifestSha256)
    (.workspace "workspace lock index manifest identity mismatch")
  parseSources manifest.sources
  raiseIf (manifest.sourceCount ≠ manifest.sources.length)
    (.workspace "workspace lock index source_count mismatch")
  raiseIf (manifest.indexDigest ≠
      hash.index locked.workspaceDigest locked.manifestSha256 manifest.sources)
    (.workspace "workspace lock index digest mismatch")
  verifyWorkspaceMetadata hash workspace tree locked
  let current ← snapshotWorkspaceSources hash tree workspace
  raiseIf (current ≠ manifest.sources) (.workspace "workspace lock index source inventory changed")

/-- What `_publish_index` writes. -/
def indexManifest (locked : WorkspaceLock D) (sources : List (IndexedSource D)) : IndexManifest D :=
  ⟨locked.workspaceDigest, locked.manifestSha256, sources.length, sources,
    hash.index locked.workspaceDigest locked.manifestSha256 sources⟩

/-- `_publish_index`: an entry that is there is kept. -/
def publishIndex (index : Index D) (locked : WorkspaceLock D) (sources : List (IndexedSource D)) :
    Index D :=
  if (index.lookup locked.workspaceDigest).isSome then index
  else index ++ [(locked.workspaceDigest, indexManifest hash locked sources)]

variable {Program : Type} (compiler : Compiler Program)

/-- What a lock without an index entry passes before one is published: the lock and the sources. -/
def verifyWithoutIndex (locked : WorkspaceLock D) :
    Checked (WorkspaceLock D × List (IndexedSource D)) := do
  let before ← snapshotWorkspaceSources hash tree workspace
  let current ← verifyWorkspacePackageLockFull hash compiler workspace tree locked
  let after ← snapshotWorkspaceSources hash tree workspace
  raiseIf (before ≠ after)
    (.workspace "workspace source bytes changed while the lock was being fully verified")
  verifyWorkspaceMetadata hash workspace tree current
  .ok (current, after)

/-- `verify_or_create_lock_index`, with the index after it. -/
def verifyOrCreateLockIndex (index : Index D) (locked : WorkspaceLock D) :
    Checked (WorkspaceLock D) × Index D :=
  match index.lookup locked.workspaceDigest with
  | some manifest =>
    (do
      verifyIndexEntry hash workspace tree locked locked.workspaceDigest manifest
      .ok locked, index)
  | none =>
    match verifyWithoutIndex hash workspace tree compiler locked with
    | .error fault => (.error fault, index)
    | .ok (current, sources) =>
      let published := publishIndex hash index current sources
      match published.lookup current.workspaceDigest with
      | none => (.error (.workspace "workspace lock index entry is incomplete"), published)
      | some manifest =>
        (do
          verifyIndexEntry hash workspace tree current current.workspaceDigest manifest
          .ok current, published)

end Verification

/-! ## What the manifests say -/

/-- A lock says what the workspace and its manifests say. -/
structure Matches (hash : Hashing D) (workspace : WorkspaceConfig) (tree : Tree)
    (locked : WorkspaceLock D) : Prop where
  manifest : sha256File hash tree workspaceManifest = .ok locked.manifestSha256
  order : workspace.buildOrder = locked.buildOrder
  known : ∀ member ∈ workspace.members, ∃ item ∈ locked.members, item.name = member.name
  members : ∀ item ∈ locked.members, ∃ member, workspace.byName item.name = some member ∧
    item.root = member.root ∧ item.version = member.version ∧ item.entry = member.entry ∧
    item.dependencies = member.dependencies ∧
    sha256File hash tree member.manifest = .ok item.manifestSha256

section Metadata

variable {hash : Hashing D} {workspace : WorkspaceConfig} {tree : Tree} {locked : WorkspaceLock D}

theorem checkMember_eq_ok {item : WorkspaceLockedMember D}
    (passed : checkMember hash workspace tree item = .ok ()) :
    ∃ member, workspace.byName item.name = some member ∧
      item.root = member.root ∧ item.version = member.version ∧ item.entry = member.entry ∧
      item.dependencies = member.dependencies ∧
      sha256File hash tree member.manifest = .ok item.manifestSha256 := by
  unfold checkMember at passed
  split at passed
  · cases passed
  · rename_i member found
    obtain ⟨_, same, passed⟩ := bind_eq_ok passed
    obtain ⟨manifest, hashed, passed⟩ := bind_eq_ok passed
    have equal := not_not.mp (raiseIf_eq_ok passed)
    obtain ⟨root, version, entry, dependencies⟩ := by
      simpa only [not_or, not_not, ne_eq] using raiseIf_eq_ok same
    exact ⟨member, found, root.symm, version.symm, entry.symm, dependencies.symm, equal ▸ hashed⟩

theorem checkMembers_eq_ok {items : List (WorkspaceLockedMember D)}
    (passed : checkMembers hash workspace tree items = .ok ()) :
    ∀ item ∈ items, checkMember hash workspace tree item = .ok () := by
  induction items with
  | nil => exact forall_mem_nil _
  | cons item items ih =>
    unfold checkMembers at passed
    obtain ⟨_, first, rest⟩ := bind_eq_ok passed
    exact forall_mem_cons.mpr ⟨first, ih rest⟩

theorem verifyWorkspaceMetadata_eq_ok
    (passed : verifyWorkspaceMetadata hash workspace tree locked = .ok ()) :
    Matches hash workspace tree locked := by
  unfold verifyWorkspaceMetadata at passed
  obtain ⟨manifest, hashed, passed⟩ := bind_eq_ok passed
  obtain ⟨_, same, passed⟩ := bind_eq_ok passed
  obtain ⟨_, order, passed⟩ := bind_eq_ok passed
  dsimp only at passed
  obtain ⟨_, names, passed⟩ := bind_eq_ok passed
  refine ⟨not_not.mp (raiseIf_eq_ok same) ▸ hashed, not_not.mp (raiseIf_eq_ok order), ?_,
    fun item member => checkMember_eq_ok (checkMembers_eq_ok passed item member)⟩
  intro member isMember
  obtain ⟨item, isItem, name⟩ :=
    mem_map.mp ((not_not.mp (raiseIf_eq_ok names)).1 (mem_map_of_mem isMember))
  exact ⟨item, isItem, name⟩

omit [DecidableEq D] in
/-- A lock that is built says what the workspace and its manifests say. -/
theorem matches_of_built {Program : Type} {compiler : Compiler Program}
    (built : buildWorkspacePackageLock hash compiler workspace tree = .ok locked) :
    Matches hash workspace tree locked := by
  obtain ⟨each, manifest, order, -⟩ := buildWorkspacePackageLock_eq_ok built
  refine ⟨manifest, order.symm, ?_, ?_⟩
  · intro member isMember
    have ordered := (workspace.complete member.name).mpr (mem_map_of_mem isMember)
    obtain ⟨item, isItem, passed⟩ := exists_right_of_forall₂ each ordered
    obtain ⟨_, _, _, _, -, -, -, -, -, rfl⟩ := lockMember_eq_ok passed
    exact ⟨_, isItem, rfl⟩
  · intro item isItem
    obtain ⟨name, -, passed⟩ := exists_left_of_forall₂ each isItem
    obtain ⟨member, _, _, _, found, -, -, -, hashed, rfl⟩ := lockMember_eq_ok passed
    exact ⟨member, found, rfl, rfl, rfl, rfl, hashed⟩

omit [DecidableEq D] in
theorem Matches.subset {other : WorkspaceConfig} {otherTree : Tree}
    (here : Matches hash workspace tree locked) (there : Matches hash other otherTree locked) :
    workspace.members ⊆ other.members := by
  intro member isMember
  obtain ⟨item, isItem, name⟩ := here.known member isMember
  obtain ⟨first, found, root, version, entry, dependencies, -⟩ := here.members item isItem
  obtain ⟨second, found', root', version', entry', dependencies', -⟩ := there.members item isItem
  have isFirst := WorkspaceConfig.byName_eq_some.mp found
  have isSecond := WorkspaceConfig.byName_eq_some.mp found'
  have same : first = member := inj_on_of_nodup_map WorkspaceConfig.names_distinct isFirst.1
    isMember (isFirst.2.trans name)
  have equal : first = second := by
    cases first
    cases second
    simp_all
  rw [← same, equal]
  exact isSecond.1

omit [DecidableEq D] in
theorem Matches.workspace_eq {other : WorkspaceConfig} {otherTree : Tree}
    (here : Matches hash workspace tree locked) (there : Matches hash other otherTree locked) :
    workspace = other := by
  have perm : workspace.members.Perm other.members :=
    (List.perm_ext_iff_of_nodup workspace.names_distinct.of_map other.names_distinct.of_map).mpr
      fun member => ⟨fun isMember => here.subset there isMember,
        fun isMember => there.subset here isMember⟩
  have members : workspace.members = other.members := by
    refine List.Perm.eq_of_pairwise ?_ (List.pairwise_map.mp workspace.sorted)
      (List.pairwise_map.mp other.sorted) perm
    exact fun a b _ _ less greater => absurd greater (lt_asymm less)
  have order := here.order.trans there.order.symm
  cases workspace
  cases other
  cases members
  cases order
  rfl

end Metadata

end Index

end Koschei.Workspace
