import Koschei.Workspace.Freshness

/-!
# Locked builds

`workspace_execution.py` builds a package of a locked workspace: it verifies the lock,
looks for the analysis of the package in a cache, under the digests of the lock, and
otherwise analyses the package and publishes the analysis. The files are read once to
verify the lock and again to analyse the package, and nothing compares the two readings.

Builders share the files, the source index and the cache. Files can change between any
two steps. With an analysis the model keeps the files that the lock was verified in
and those that were analysed, which the cache does not keep.
-/

namespace Koschei.Workspace

open Lib

section Builds

variable {D Program : Type}

/-- `WorkspaceAnalysisIdentity`, which the cache has its entries under. -/
structure WorkspaceAnalysisIdentity (D : Type) where
  package : String
  memberManifestSha256 : D
  moduleLockDigest : D
  compilerContractDigest : D
  deriving DecidableEq

/-- What an analysis gives: the backend source, and the version and the fingerprint of its MIR. -/
structure Analysis where
  goSource : String
  mirVersion : Int
  mirFingerprint : String
  deriving DecidableEq

/-- An entry of the cache, with the workspace and the files it comes from. -/
structure CacheEntry where
  analysis : Analysis
  workspace : WorkspaceConfig
  verified : Tree
  analysed : Tree

/-- Where a build is. -/
inductive BuilderState (D : Type) where
  | idle
  | locked (workspace : WorkspaceConfig) (verified : Tree) (identity : WorkspaceAnalysisIdentity D)
  | missed (workspace : WorkspaceConfig) (verified : Tree) (identity : WorkspaceAnalysisIdentity D)
  | analysed (identity : WorkspaceAnalysisIdentity D) (entry : CacheEntry)
  | finished (identity : WorkspaceAnalysisIdentity D) (entry : CacheEntry) (hit : Bool)
  | failed (fault : Fault)

/-- The files, the source index, the analysis cache and the builders. -/
structure BuildSystem (D : Type) where
  tree : Tree
  index : Index D
  cache : List (WorkspaceAnalysisIdentity D × CacheEntry)
  builders : Nat → BuilderState D

/-- A step: the files change, or a builder verifies the lock, looks into the cache, analyses the package
or publishes the analysis. -/
inductive BuildCall (D : Type) where
  | edit (tree : Tree)
  | verifyLock (builder : Nat) (workspace : WorkspaceConfig) (package : String)
      (locked : WorkspaceLock D)
  | lookup (builder : Nat)
  | analyse (builder : Nat)
  | publish (builder : Nat)

/-- The compiler with its backend, and the digest of its sources. -/
structure Backend (D Program : Type) extends Compiler Program where
  generate : ModuleGraph Program → Checked Analysis
  contractDigest : D

variable [DecidableEq D]

section Steps

variable (hash : Hashing D) (backend : Backend D Program)

/-- What `prepare_locked_workspace_identity` makes of a verified lock. -/
def lockedIdentity (package : String) (verified : WorkspaceLock D) :
    Checked (WorkspaceAnalysisIdentity D) :=
  match verified.members.find? fun member => decide (member.name = package) with
  | none => .error (.workspace ("package is missing from workspace lock: " ++ package))
  | some member =>
    .ok ⟨package, member.manifestSha256, member.moduleLockDigest, backend.contractDigest⟩

/-- The check of `load_workspace_lock` that the digest of a lock is the one of what it says. -/
def loadWorkspaceLock (locked : WorkspaceLock D) : Checked (WorkspaceLock D) := do
  raiseIf (locked.workspaceDigest ≠
      hash.workspaceLock locked.manifestSha256 locked.members locked.buildOrder)
    (.workspace "workspace lock digest does not match its payload")
  .ok locked

/-- `prepare_locked_workspace_identity`, with the index after it. -/
def prepareLockedWorkspaceIdentity (workspace : WorkspaceConfig) (package : String) (tree : Tree)
    (index : Index D) (locked : WorkspaceLock D) :
    Checked (WorkspaceAnalysisIdentity D) × Index D :=
  if (workspace.byName package).isNone then
    (.error (.workspace ("unknown workspace package: " ++ package)), index)
  else match loadWorkspaceLock hash locked with
    | .error fault => (.error fault, index)
    | .ok locked =>
      match verifyOrCreateLockIndex hash workspace tree backend.toCompiler index locked with
      | (.error fault, index) => (.error fault, index)
      | (.ok verified, index) => (lockedIdentity backend package verified, index)

/-- `_analyze_workspace_package`, with the check of its result. -/
def analyzeWorkspacePackage (workspace : WorkspaceConfig) (tree : Tree) (package : String) :
    Checked Analysis := do
  let graph ← loadWorkspaceMemberGraph backend.toCompiler workspace tree package
  backend.checkGraph graph
  let analysis ← backend.generate graph
  raiseIf (analysis.mirVersion < 1)
    (.workspace "workspace analysis builder returned invalid MIR version")
  .ok analysis

/-- A builder goes on. -/
def BuildSystem.advance (system : BuildSystem D) (builder : Nat) (state : BuilderState D) :
    BuildSystem D :=
  { system with builders := fun other => if other = builder then state else system.builders other }

def verifyLockStep (system : BuildSystem D) (builder : Nat) (workspace : WorkspaceConfig)
    (package : String) (locked : WorkspaceLock D) : BuildSystem D :=
  match prepareLockedWorkspaceIdentity hash backend workspace package system.tree system.index
      locked with
  | (.error fault, index) => { system with index := index }.advance builder (.failed fault)
  | (.ok identity, index) =>
    { system with index := index }.advance builder (.locked workspace system.tree identity)

def lookupStep (system : BuildSystem D) (builder : Nat) : BuildSystem D :=
  match system.builders builder with
  | .locked workspace verified identity =>
    match system.cache.lookup identity with
    | some entry => system.advance builder (.finished identity entry true)
    | none => system.advance builder (.missed workspace verified identity)
  | _ => system

def analyseStep (system : BuildSystem D) (builder : Nat) : BuildSystem D :=
  match system.builders builder with
  | .missed workspace verified identity =>
    match analyzeWorkspacePackage backend workspace system.tree identity.package with
    | .error fault => system.advance builder (.failed fault)
    | .ok analysis =>
      system.advance builder (.analysed identity ⟨analysis, workspace, verified, system.tree⟩)
  | _ => system

/-- An entry that was published meanwhile is kept and loaded. -/
def publishStep (system : BuildSystem D) (builder : Nat) : BuildSystem D :=
  match system.builders builder with
  | .analysed identity entry =>
    match system.cache.lookup identity with
    | some other => system.advance builder (.finished identity other true)
    | none =>
      { system with cache := system.cache ++ [(identity, entry)] }.advance builder
        (.finished identity entry false)
  | _ => system

/-- A step of the builders that share the files, the index and the cache. -/
def buildStep (system : BuildSystem D) : BuildCall D → Unit × BuildSystem D
  | .edit tree => ((), { system with tree := tree })
  | .verifyLock builder workspace package locked =>
    ((), verifyLockStep hash backend system builder workspace package locked)
  | .lookup builder => ((), lookupStep system builder)
  | .analyse builder => ((), analyseStep backend system builder)
  | .publish builder => ((), publishStep system builder)

/-- Some files, with an empty index, an empty cache and no build. -/
def BuildSystem.start (tree : Tree) : BuildSystem D := ⟨tree, [], [], fun _ => .idle⟩

end Steps

/-! ## What an entry is generated from -/

/-- The backend source of an entry was generated from modules with the module lock of the identity. -/
def Faithful (hash : Hashing D) (backend : Backend D Program)
    (identity : WorkspaceAnalysisIdentity D) (entry : CacheEntry) : Prop :=
  ∃ member graph moduleLock, entry.workspace.byName identity.package = some member ∧
    loadWorkspaceMemberGraph backend.toCompiler entry.workspace entry.analysed identity.package =
      .ok graph ∧
    backend.generate graph = .ok entry.analysis ∧
    memberModuleLock hash backend.toCompiler entry.analysed member graph = .ok moduleLock ∧
    moduleLock.lockDigest = identity.moduleLockDigest

/-- No module that the package leads to was edited between the verification of the lock and the
analysis. -/
def Unedited (compiler : Compiler Program) (package : String) (entry : CacheEntry) : Prop :=
  ∀ member, entry.workspace.byName package = some member → ∀ path,
    (loader compiler entry.workspace entry.analysed).Reaches member.entryPath path →
      entry.analysed.contents path = entry.verified.contents path

variable {hash : Hashing D} {backend : Backend D Program}

/-- The files that a lock was verified in have the sources of files in which it was verified in full, and an
identity is the one of a package in it. -/
structure VerifiedLock (hash : Hashing D) (compiler : Compiler Program) (workspace : WorkspaceConfig)
    (verified : Tree) (identity : WorkspaceAnalysisIdentity D) (original : Tree)
    (sources : List (IndexedSource D)) (locked : WorkspaceLock D) (item : WorkspaceLockedMember D) :
    Prop where
  built : buildWorkspacePackageLock hash compiler workspace original = .ok locked
  before : Snapshot hash original workspace sources
  after : Snapshot hash verified workspace sources
  isItem : item ∈ locked.members
  package : item.name = identity.package
  digest : item.moduleLockDigest = identity.moduleLockDigest

section Analysed

variable {identity : WorkspaceAnalysisIdentity D} {original : Tree}
  {sources : List (IndexedSource D)} {locked : WorkspaceLock D} {item : WorkspaceLockedMember D}
  {entry : CacheEntry}

omit [DecidableEq D] in
theorem analyzeWorkspacePackage_eq_ok {workspace : WorkspaceConfig} {tree : Tree} {package : String}
    {analysis : Analysis}
    (passed : analyzeWorkspacePackage backend workspace tree package = .ok analysis) :
    ∃ graph, loadWorkspaceMemberGraph backend.toCompiler workspace tree package = .ok graph ∧
      backend.generate graph = .ok analysis := by
  unfold analyzeWorkspacePackage at passed
  obtain ⟨graph, loaded, passed⟩ := bind_eq_ok passed
  obtain ⟨_, -, passed⟩ := bind_eq_ok passed
  obtain ⟨result, generated, passed⟩ := bind_eq_ok passed
  obtain ⟨_, -, passed⟩ := bind_eq_ok passed
  cases passed
  exact ⟨graph, loaded, generated⟩

omit [DecidableEq D] in
theorem VerifiedLock.member {compiler : Compiler Program} {workspace : WorkspaceConfig} {verified : Tree}
    (lock : VerifiedLock hash compiler workspace verified identity original sources locked item) :
    ∃ member graph moduleLock, workspace.byName identity.package = some member ∧
      loadWorkspaceMemberGraph compiler workspace original identity.package = .ok graph ∧
      memberModuleLock hash compiler original member graph = .ok moduleLock ∧
      moduleLock.lockDigest = identity.moduleLockDigest := by
  obtain ⟨name, -, passed⟩ :=
    exists_left_of_forall₂ (buildWorkspacePackageLock_eq_ok lock.built).1 lock.isItem
  obtain ⟨member, graph, moduleLock, _, found, loaded, -, built, -, rfl⟩ := lockMember_eq_ok passed
  have package : name = identity.package := lock.package
  exact ⟨member, graph, moduleLock, package ▸ found, package ▸ loaded, built, lock.digest⟩

omit [DecidableEq D] in
theorem contents_of_sha256File (free : CollisionFree hash) {first second : Tree} {path : Path}
    {digest : D} (hashed : sha256File hash first path = .ok digest)
    (hashed' : sha256File hash second path = .ok digest) : first.contents path = second.contents path := by
  obtain ⟨contents, found, rfl⟩ := sha256File_eq_ok hashed
  obtain ⟨contents', found', same⟩ := sha256File_eq_ok hashed'
  rw [found, found', free.contents _ _ same]

omit [DecidableEq D] in
/-- An analysis is one of the locked modules exactly when none of them was edited after the verification of
the lock. -/
theorem faithful_iff_unedited (free : CollisionFree hash)
    (lock : VerifiedLock hash backend.toCompiler entry.workspace entry.verified identity original sources
      locked item)
    (analysed : analyzeWorkspacePackage backend entry.workspace entry.analysed identity.package =
      .ok entry.analysis) :
    Faithful hash backend identity entry ↔ Unedited backend.toCompiler identity.package entry := by
  obtain ⟨graph, loaded, generated⟩ := analyzeWorkspacePackage_eq_ok analysed
  obtain ⟨member, graph', moduleLock', found, loaded', built', digest'⟩ := lock.member
  have isMember := (WorkspaceConfig.byName_eq_some.mp found).1
  have entries := entries_of_built lock.built
  constructor
  · rintro ⟨_, _, moduleLock, isFound, isLoaded, -, built, digest⟩ other isOther path reached
    cases some.inj (found.symm.trans isFound)
    cases some.inj (found.symm.trans isOther)
    cases ok.inj (loaded.symm.trans isLoaded)
    obtain ⟨root, entrypoint, lockDigest, modules, -⟩ := memberModuleLock_eq_ok built
    obtain ⟨root', entrypoint', lockDigest', -, modules'⟩ := memberModuleLock_eq_ok built'
    -- The module locks have one digest, so they lock the same modules.
    obtain ⟨sameEntry, sameModules⟩ := free.moduleLock _ _ _ _
      (lockDigest.symm.trans (digest.trans (digest'.symm.trans lockDigest')))
    rw [sameEntry] at entrypoint
    have sameRoot : root = root' := List.append_cancel_right (entrypoint.symm.trans entrypoint')
    obtain ⟨_, isFound, -, -, ran⟩ := loadWorkspaceMemberGraph_eq_ok loaded
    cases some.inj (found.symm.trans isFound)
    have grown := Loader.load_grows ran
    have isModule := (grown.closed Loader.closed_nil).reaches grown.loaded reached
    obtain ⟨item, isItem, rfl, hashed⟩ := modules path isModule
    obtain ⟨isModule', hashed'⟩ := modules' item (sameModules ▸ isItem)
    rw [← sameRoot] at isModule' hashed'
    rw [contents_of_sha256File free hashed hashed']
    -- The module is a source of the verified graph.
    obtain ⟨_, isFound, -, -, ran'⟩ := loadWorkspaceMemberGraph_eq_ok loaded'
    cases some.inj (found.symm.trans isFound)
    rcases (Loader.load_grows ran').reached _ isModule' with impossible | reached'
    · cases impossible
    · exact (contents_agree free lock.before lock.after
        (reaches_inScope entries lock.before.roots isMember (fun _ _ _ => rfl) reached')).symm
  · intro unedited
    have scope : ∀ path, (loader backend.toCompiler entry.workspace entry.analysed).Reaches
        member.entryPath path → InScope entry.workspace path := fun path reached =>
      reaches_inScope entries lock.after.roots isMember
        (fun path reached _ => unedited member found path reached) reached
    have same : ∀ path, (loader backend.toCompiler entry.workspace entry.analysed).Reaches
        member.entryPath path → entry.analysed.contents path = original.contents path :=
      fun path reached => (unedited member found path reached).trans
        (contents_agree free lock.before lock.after (scope path reached))
    have equal := graphs_agree found same loaded loaded'
    subst equal
    obtain ⟨_, isFound, -, -, ran⟩ := loadWorkspaceMemberGraph_eq_ok loaded
    cases some.inj (found.symm.trans isFound)
    have contents : ∀ path ∈ graph.modules.map fst,
        entry.analysed.contents path = original.contents path := by
      intro path isModule
      rcases (Loader.load_grows ran).reached path isModule with impossible | reached
      · cases impossible
      · exact same path reached
    exact ⟨member, graph, moduleLock', found, loaded, generated,
      (memberModuleLock_congr contents).trans built', digest'⟩

end Analysed

/-! ## Runs of the builders -/

/-- A verified lock of some package. -/
def Verified (hash : Hashing D) (compiler : Compiler Program) (workspace : WorkspaceConfig)
    (verified : Tree) (identity : WorkspaceAnalysisIdentity D) : Prop :=
  ∃ original sources locked item,
    VerifiedLock hash compiler workspace verified identity original sources locked item

/-- An entry comes from an analysis after the verification of a lock. -/
def Analysed (hash : Hashing D) (backend : Backend D Program)
    (identity : WorkspaceAnalysisIdentity D) (entry : CacheEntry) : Prop :=
  Verified hash backend.toCompiler entry.workspace entry.verified identity ∧
    analyzeWorkspacePackage backend entry.workspace entry.analysed identity.package = .ok entry.analysis

/-- What is known of a build, when the cache has some entries. -/
def BuilderSound (hash : Hashing D) (backend : Backend D Program)
    (cache : List (WorkspaceAnalysisIdentity D × CacheEntry)) : BuilderState D → Prop
  | .idle | .failed _ => True
  | .locked workspace verified identity | .missed workspace verified identity =>
    Verified hash backend.toCompiler workspace verified identity
  | .analysed identity entry => Analysed hash backend identity entry
  | .finished identity entry _ => (identity, entry) ∈ cache

structure BuildSystem.Sound (hash : Hashing D) (backend : Backend D Program)
    (system : BuildSystem D) : Prop where
  published : Published hash backend.toCompiler system.index
  cache : ∀ item ∈ system.cache, Analysed hash backend item.1 item.2
  builders : ∀ builder, BuilderSound hash backend system.cache (system.builders builder)

section Steps

variable {system : BuildSystem D}

omit [DecidableEq D] in
theorem BuilderSound.mono {cache after : List (WorkspaceAnalysisIdentity D × CacheEntry)}
    (subset : cache ⊆ after) {state : BuilderState D} (sound : BuilderSound hash backend cache state) :
    BuilderSound hash backend after state := by
  cases state with
  | finished identity entry hit => exact subset sound
  | _ => exact sound

theorem BuildSystem.Sound.advance (sound : system.Sound hash backend) {builder : Nat}
    {state : BuilderState D} (known : BuilderSound hash backend system.cache state) :
    (system.advance builder state).Sound hash backend := by
  refine ⟨sound.published, sound.cache, fun other => ?_⟩
  unfold BuildSystem.advance
  dsimp only
  split
  · exact known
  · exact sound.builders other

omit [DecidableEq D] in
theorem lockedIdentity_eq_ok {package : String} {locked : WorkspaceLock D}
    {identity : WorkspaceAnalysisIdentity D}
    (passed : lockedIdentity backend package locked = .ok identity) :
    ∃ item ∈ locked.members, item.name = identity.package ∧
      item.moduleLockDigest = identity.moduleLockDigest := by
  unfold lockedIdentity at passed
  split at passed
  · cases passed
  · rename_i item found
    cases passed
    exact ⟨item, mem_of_find?_eq_some found, of_decide_eq_true
      (find?_some
      (p := fun member : WorkspaceLockedMember D => decide (member.name = package)) found), rfl⟩

/-- A verification publishes what was verified in full, and its identity is of a verified lock. -/
theorem prepareLockedWorkspaceIdentity_sound (free : CollisionFree hash) {workspace : WorkspaceConfig}
    {package : String} {tree : Tree} {index : Index D} {locked : WorkspaceLock D}
    (published : Published hash backend.toCompiler index) :
    Published hash backend.toCompiler
        (prepareLockedWorkspaceIdentity hash backend workspace package tree index locked).2 ∧
      ∀ identity, (prepareLockedWorkspaceIdentity hash backend workspace package tree index locked).1 =
        .ok identity → Verified hash backend.toCompiler workspace tree identity := by
  have after := published_verification published ⟨workspace, tree, locked⟩
  unfold prepareLockedWorkspaceIdentity
  split
  · exact ⟨published, fun _ refused => by cases refused⟩
  · split
    · exact ⟨published, fun _ refused => by cases refused⟩
    · rename_i loaded isLoaded
      obtain ⟨_, isSealed, same⟩ := bind_eq_ok isLoaded
      cases same
      have isSealed : Sealed hash locked := by
        unfold Sealed
        exact not_not.mp (raiseIf_eq_ok isSealed)
      unfold verification at after
      dsimp only at after
      split
      · rename_i fault index failed
        rw [failed] at after
        exact ⟨after, fun _ refused => by cases refused⟩
      · rename_i verified index passed
        rw [passed] at after
        refine ⟨after, fun identity isIdentity => ?_⟩
        obtain ⟨rfl, original, sources, built, before, now⟩ :=
          original_of_accepted free published isSealed passed
        obtain ⟨item, isItem, name, digest⟩ := lockedIdentity_eq_ok isIdentity
        exact ⟨original, sources, verified, item, built, before, now, isItem, name, digest⟩

section

variable (sound : system.Sound hash backend)

include sound

theorem verifyLockStep_sound (free : CollisionFree hash)
    (builder : Nat) (workspace : WorkspaceConfig) (package : String) (locked : WorkspaceLock D) :
    (verifyLockStep hash backend system builder workspace package locked).Sound hash backend := by
  obtain ⟨published, verified⟩ :=
    @prepareLockedWorkspaceIdentity_sound D Program _ hash backend free workspace package system.tree
      system.index locked sound.published
  unfold verifyLockStep
  split
  · rename_i fault index ran
    rw [ran] at published
    have next : ({ system with index := index } : BuildSystem D).Sound hash backend :=
      ⟨published, sound.cache, sound.builders⟩
    exact next.advance trivial
  · rename_i identity index ran
    rw [ran] at published verified
    have next : ({ system with index := index } : BuildSystem D).Sound hash backend :=
      ⟨published, sound.cache, sound.builders⟩
    exact next.advance (verified identity rfl)

theorem lookupStep_sound (builder : Nat) : (lookupStep system builder).Sound hash backend := by
  have known := sound.builders builder
  unfold lookupStep
  split
  · rename_i workspace verified identity state
    rw [state] at known
    split
    · exact sound.advance (mem_of_lookup_eq_some ‹_›)
    · exact sound.advance known
  · exact sound

theorem analyseStep_sound (builder : Nat) :
    (analyseStep backend system builder).Sound hash backend := by
  have known := sound.builders builder
  unfold analyseStep
  split
  · rename_i workspace verified identity state
    rw [state] at known
    split
    · exact sound.advance trivial
    · exact sound.advance ⟨known, ‹_›⟩
  · exact sound

theorem publishStep_sound (builder : Nat) : (publishStep system builder).Sound hash backend := by
  have known := sound.builders builder
  unfold publishStep
  split
  · rename_i identity entry state
    rw [state] at known
    split
    · exact sound.advance (mem_of_lookup_eq_some ‹_›)
    · have cache : ∀ item ∈ system.cache ++ [(identity, entry)],
          Analysed hash backend item.1 item.2 := by
        intro item member
        rcases mem_append.mp member with earlier | here
        · exact sound.cache item earlier
        · rw [mem_singleton.mp here]
          exact known
      have next : ({ system with cache := system.cache ++ [(identity, entry)] } :
          BuildSystem D).Sound hash backend :=
        ⟨sound.published, cache, fun other =>
          (sound.builders other).mono (List.subset_append_left _ _)⟩
      exact next.advance (mem_append_right _ (mem_singleton_self _))
  · exact sound

theorem buildStep_sound (free : CollisionFree hash)
    (call : BuildCall D) : (buildStep hash backend system call).2.Sound hash backend := by
  cases call with
  | edit tree => exact ⟨sound.published, sound.cache, sound.builders⟩
  | verifyLock builder workspace package locked =>
    exact verifyLockStep_sound sound free builder workspace package locked
  | lookup builder => exact lookupStep_sound sound builder
  | analyse builder => exact analyseStep_sound sound builder
  | publish builder => exact publishStep_sound sound builder

end

theorem builds_sound (free : CollisionFree hash) (tree : Tree) (calls : List (BuildCall D)) :
    (finalState (buildStep hash backend) (.start tree) calls).Sound hash backend := by
  have start : (BuildSystem.start tree : BuildSystem D).Sound hash backend :=
    ⟨fun _ _ impossible => (nomatch impossible), forall_mem_nil _, fun _ => trivial⟩
  refine (trace_invariant start fun moment member before => ?_).2
  have after := buildStep_sound before free moment.call
  rwa [step_of_mem_trace member] at after

end Steps

/-- In every run of builders and edits, an entry of the cache was generated from modules with the module lock
of its identity exactly when no module that it was generated from was edited between the verification of
the lock and the analysis; and a build that is finished has an entry of the cache. -/
theorem published_faithful_iff (hash : Hashing D) (free : CollisionFree hash)
    (backend : Backend D Program) (tree : Tree) (calls : List (BuildCall D)) :
    (∀ item ∈ (finalState (buildStep hash backend) (.start tree) calls).cache,
      (Faithful hash backend item.1 item.2 ↔ Unedited backend.toCompiler item.1.package item.2)) ∧
    ∀ builder identity entry hit,
      (finalState (buildStep hash backend) (.start tree) calls).builders builder =
        .finished identity entry hit →
      (identity, entry) ∈ (finalState (buildStep hash backend) (.start tree) calls).cache := by
  have sound := @builds_sound D Program _ hash backend free tree calls
  constructor
  · intro item member
    obtain ⟨⟨original, sources, locked, lockedItem, lock⟩, analysed⟩ := sound.cache item member
    exact faithful_iff_unedited free lock analysed
  · intro builder identity entry hit state
    have known := sound.builders builder
    rw [state] at known
    exact known

end Builds

/-! ## An edit between the verification and the analysis -/

/-- A backend whose source is the sources of the modules. -/
def plainBackend : Backend Kept Bytes where
  toCompiler := plainCompiler
  generate := fun graph =>
    .ok ⟨ofList ((graph.modules.flatMap fun module => module.2.program).map fun byte =>
      Char.ofNat (64 + byte.toNat)), 1, "f0"⟩
  contractDigest := .text "contract"

/-- The files of the packages after an edit of `util`. -/
def editedEntries : List (Path × Node) := (pairEntries false).map fun entry =>
    if entry.1 = ["util", "main.ks"] then (entry.1, .file [3]) else entry

theorem editedDistinct : (editedEntries.map fst).Nodup := by decide

theorem editedParents : ∀ path ∈ editedEntries.map fst, path ≠ [] ∧
    (path.dropLast = [] ∨ (path.dropLast, Node.directory) ∈ editedEntries) := by decide

def editedTree : Tree := ⟨editedEntries, editedDistinct, editedParents⟩

/-- What a run of builders and edits leaves, in the files of the packages. -/
def afterBuilds (calls : List (BuildCall Kept)) : BuildSystem Kept :=
  finalState (buildStep Kept.hashing plainBackend) (.start (pairTree false)) calls

/-- A build of `util` by a builder, with what happens before its analysis. -/
def buildCalls (builder : Nat) (meanwhile : List (BuildCall Kept)) : List (BuildCall Kept) :=
  [.verifyLock builder pairWorkspace "util" pairLock, .lookup builder] ++ meanwhile ++
    [.analyse builder, .publish builder]

/-- The backend source that a finished build has, and whether it is from the cache. -/
def BuilderState.delivered : BuilderState Kept → Option (String × Bool)
  | .finished _ entry hit => some (entry.analysis.goSource, hit)
  | _ => none

theorem unedited_build_faithful :
    ∃ item ∈ (afterBuilds (buildCalls 0 [.edit (pairTree true)])).cache,
      Faithful Kept.hashing plainBackend item.1 item.2 := by
  have published : ∃ item ∈ (afterBuilds (buildCalls 0 [.edit (pairTree true)])).cache,
      item.2.analysed.entries = pairEntries true ∧ item.2.verified.entries = pairEntries false := by
    decide +kernel
  obtain ⟨item, member, analysed, verified⟩ := published
  refine ⟨item, member, ((published_faithful_iff Kept.hashing Kept.collisionFree plainBackend
    (pairTree false) (buildCalls 0 [.edit (pairTree true)])).1 item member).mpr ?_⟩
  intro _ _ path _
  refine Option.ext fun contents => ?_
  rw [Tree.contents_eq_some_iff_mem, Tree.contents_eq_some_iff_mem, analysed, verified]
  unfold pairEntries
  simp

/-- The files of `util` are edited between the verification of the lock and the analysis, and edited
back; another builder then has the source of the edited files for the lock. -/
def editedCalls : List (BuildCall Kept) := buildCalls 0 [.edit editedTree] ++
    [.edit (pairTree false), .verifyLock 1 pairWorkspace "util" pairLock, .lookup 1]

theorem edited_build_unfaithful : CollisionFree Kept.hashing ∧
      (∃ item ∈ (afterBuilds editedCalls).cache,
        ¬ Faithful Kept.hashing plainBackend item.1 item.2) ∧
      ((afterBuilds editedCalls).builders 1).delivered = some ("C", true) ∧
      analyzeWorkspacePackage plainBackend pairWorkspace (pairTree false) "util" =
        .ok ⟨"B", 1, "f0"⟩ := by
  refine ⟨Kept.collisionFree, ?_, by decide +kernel, by decide +kernel⟩
  have edited : ∃ item ∈ (afterBuilds editedCalls).cache, item.1.package = "util" ∧
      item.2.workspace.byName "util" = some ⟨"util", ["util"], "0.1.0", ["main.ks"], []⟩ ∧
      item.2.analysed.contents ["util", "main.ks"] ≠
        item.2.verified.contents ["util", "main.ks"] := by
    decide +kernel
  obtain ⟨item, member, package, found, differ⟩ := edited
  refine ⟨item, member, fun faithful => ?_⟩
  obtain ⟨⟨original, sources, locked, lockedItem, lock⟩, analysed⟩ :=
    (builds_sound Kept.collisionFree (pairTree false) editedCalls).cache item member
  have unedited := (faithful_iff_unedited Kept.collisionFree lock analysed).mp faithful
  rw [package] at unedited
  exact differ (unedited _ found _ .root)

end Koschei.Workspace
