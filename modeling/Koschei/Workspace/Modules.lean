import Koschei.Lib.Loading
import Koschei.Workspace.Files
import Mathlib.Data.String.Basic

/-!
# Modules of a workspace

`workspace_modules.py` resolves an import of a module to a source beside it or to
the entry of a workspace package that its own package depends on. Whether there
is something beside the module is asked of the file tree; nothing else is, apart
from the contents of the modules that are loaded.
-/

namespace Koschei.Workspace

open Lib

/-- What is raised: by the workspace, the module loader, the module lock, the compiler or the system. -/
inductive Fault where
  | workspace (message : String)
  | module (code message : String)
  | moduleLock (code message : String)
  | compiler (message : String)
  | system (message : String)
  deriving DecidableEq

abbrev Checked (α : Type) : Type := Except Fault α

/-! ## The workspace -/

/-- `WorkspaceMember`: a project of the workspace, with its entry under its root. -/
structure WorkspaceMember where
  name : String
  root : Path
  version : String
  entry : Path
  dependencies : List String
  deriving DecidableEq

def WorkspaceMember.entryPath (member : WorkspaceMember) : Path := member.root ++ member.entry

def WorkspaceMember.manifest (member : WorkspaceMember) : Path := member.root ++ ["koschei.toml"]

/-- `WorkspaceConfig`, as it is loaded: the members by their names, and an order of all of them. -/
structure WorkspaceConfig where
  members : List WorkspaceMember
  buildOrder : List String
  sorted : (members.map WorkspaceMember.name).Pairwise (· < ·)
  complete : ∀ name, name ∈ buildOrder ↔ name ∈ members.map WorkspaceMember.name

def workspaceManifest : Path := ["koschei.workspace.toml"]

namespace WorkspaceConfig

variable (workspace : WorkspaceConfig)

/-- `by_name`. -/
def byName (name : String) : Option WorkspaceMember :=
  workspace.members.find? fun member => decide (member.name = name)

/-- `owner_for`. -/
def ownerFor (source : Path) : Checked WorkspaceMember :=
  match workspace.members.filter fun member => member.root.isPrefixOf source with
  | [member] => .ok member
  | _ => .error (.workspace ("source has no unique workspace package owner: " ++ posix source))

variable {workspace} {name : String} {member : WorkspaceMember} {source : Path}

theorem names_distinct : (workspace.members.map WorkspaceMember.name).Nodup :=
  workspace.sorted.imp fun less => ne_of_lt less

theorem byName_eq_some : workspace.byName name = some member ↔
    member ∈ workspace.members ∧ member.name = name :=
  find?_key_iff names_distinct

theorem ownerFor_eq_ok (found : workspace.ownerFor source = .ok member) :
    member ∈ workspace.members ∧ member.root <+: source := by
  unfold ownerFor at found
  split at found
  · rename_i same
    cases found
    have among : member ∈ workspace.members.filter fun other => other.root.isPrefixOf source := by
      rw [same]
      exact mem_singleton_self member
    obtain ⟨isMember, under⟩ := mem_filter.mp among
    exact ⟨isMember, List.isPrefixOf_iff_prefix.mp under⟩
  · cases found

variable (workspace)

/-- A root in another one. -/
def Nested (first second : Path) : Prop := first <+: second ∧ first ≠ second

instance (first second : Path) : Decidable (Nested first second) :=
  inferInstanceAs (Decidable (_ ∧ _))

/-- What `WorkspaceImportResolver` checks of the roots. -/
def checkRoots : Checked Unit := do
  let roots := workspace.members.map WorkspaceMember.root
  raiseIf (¬ roots.Nodup) (.workspace "workspace member roots are not unique")
  raiseIf (¬ roots.Pairwise fun left right => ¬ Nested left right ∧ ¬ Nested right left)
    (.workspace "workspace member roots cannot be nested when package imports are enabled")

end WorkspaceConfig

/-! ## Imports -/

/-- Where a source of a name would be beside a module. -/
def besidePath (importer : Path) (name : String) : Path := importer.dropLast ++ [name ++ ".ks"]

/-- The package of a name that a package may import. -/
def dependencyOf (workspace : WorkspaceConfig) (owner : WorkspaceMember) (name : String) :
    Option WorkspaceMember :=
  if name ∈ owner.dependencies then workspace.byName name else none

section Resolver

variable (workspace : WorkspaceConfig) (tree : Tree)

/-- `WorkspaceImportResolver.__call__`. -/
def resolveImport (importer : Path) (name : String) : Checked Path := do
  let owner ← workspace.ownerFor importer
  let beside := besidePath importer name
  if tree.present beside then
    if (dependencyOf workspace owner name).isSome then
      .error (.module "KS1601" ("Belirsiz import '" ++ name ++ "': hem paket-içi " ++ fileName beside ++
        " dosyası hem de aynı adlı workspace dependency var. Gölgeleme güvenlik nedeniyle kapalıdır."))
    else if tree.isSymlink beside then
      .error (.module "KS1601" ("Workspace paket-içi import symlink olamaz: " ++ fileName beside))
    else if ¬ owner.root <+: beside then
      .error (.module "KS1601" ("Paket-içi import workspace üyesinin dışına kaçıyor: " ++ name))
    else .ok beside
  else
    match dependencyOf workspace owner name with
    | some dependency => .ok dependency.entryPath
    | none =>
      if (workspace.byName name).isSome then
        .error (.module "KS1601" ("Workspace paketi '" ++ name ++
          "' doğrudan dependency olarak ilan edilmemiş. '" ++ owner.name ++
          "' yalnız [dependencies]." ++ owner.name ++ " listesindeki paketleri import edebilir."))
      else .ok beside

end Resolver

/-! ## Graphs -/

abbrev GraphModules (Program : Type) : Type := List (Path × Loaded Path String Program)

/-- `ModuleGraph`. -/
structure ModuleGraph (Program : Type) where
  root : Path
  modules : GraphModules Program

/-- The compiler: the parser, what a program imports, the checks of a graph, and how deep modules can be
loaded into each other. -/
structure Compiler (Program : Type) where
  parse : Bytes → Checked Program
  imports : Program → List String
  checkGraph : ModuleGraph Program → Checked Unit
  depth : Nat

section Graphs

variable {Program : Type} (compiler : Compiler Program) (workspace : WorkspaceConfig) (tree : Tree)

def readModule (path : Path) : Checked Program := match tree.contents path with
  | none => .error (.module "KS1601" ("Modül dosyası bulunamadı: " ++ fileName path ++
      " (aranan yer: " ++ posix path.dropLast ++ ")"))
  | some contents => compiler.parse contents

/-- What `load_graph` loads modules with. -/
def loader : Loader Path String Program Fault where
  read := readModule compiler tree
  names := compiler.imports
  resolve := resolveImport workspace tree
  cyclic := fun loading key => .module "KS1602" ("Döngüsel import: " ++
    String.intercalate " -> " ((loading.dropWhile fun other => other ≠ key).map fileName) ++ " -> " ++
    fileName key ++ ". Modüller bir halka oluşturamaz; ortak kodu üçüncü bir modüle taşıyın.")
  repeated := fun name => .module "KS1603" ("'" ++ name ++ "' modülü birden fazla kez içe aktarılmış.")
  exhausted := .system "RecursionError"

/-- `load_workspace_member_graph`. -/
def loadWorkspaceMemberGraph (name : String) : Checked (ModuleGraph Program) :=
  match workspace.byName name with
  | none => .error (.workspace ("unknown workspace package: " ++ name))
  | some member => do
    workspace.checkRoots
    let modules ← (loader compiler workspace tree).load compiler.depth [] member.entryPath
      (stem (fileName member.entryPath)) []
    .ok ⟨member.entryPath, modules⟩

end Graphs

variable {importer target : Path} {workspace : WorkspaceConfig} {tree : Tree} {name : String}
  {owner : WorkspaceMember}

section

variable (owned : workspace.ownerFor importer = .ok owner)

include owned

theorem resolveImport_beside (resolved : resolveImport workspace tree importer name = .ok target) :
    target = besidePath importer name ∨
      ∃ dependency, dependencyOf workspace owner name = some dependency ∧
        target = dependency.entryPath := by
  unfold resolveImport at resolved
  rw [bind_of_ok owned] at resolved
  dsimp only at resolved
  repeat' split at resolved
  · cases resolved
  · cases resolved
  · cases resolved
  · cases resolved
    exact .inl rfl
  · rename_i dependency found
    cases resolved
    exact .inr ⟨dependency, found, rfl⟩
  · cases resolved
  · cases resolved
    exact .inl rfl

theorem resolveImport_package {dependency : WorkspaceMember}
    (depends : dependencyOf workspace owner name = some dependency) :
    resolveImport workspace tree importer name = .ok target ↔
      tree.present (besidePath importer name) = false ∧ dependency.entryPath = target := by
  unfold resolveImport
  rw [bind_of_ok owned]
  dsimp only
  rw [depends]
  cases tree.present (besidePath importer name) with
  | true =>
    rw [if_pos rfl, if_pos isSome_some]
    exact ⟨nofun, nofun⟩
  | false =>
    rw [if_neg false_ne_true, ok.injEq]
    exact (and_iff_right rfl).symm

/-- A source beside a module is imported, unless it is a link or under another root. -/
theorem resolveImport_source (free : dependencyOf workspace owner name = none)
    (present : tree.present (besidePath importer name) = true)
    (real : tree.isSymlink (besidePath importer name) = false)
    (under : owner.root <+: besidePath importer name) :
    resolveImport workspace tree importer name = .ok (besidePath importer name) := by
  unfold resolveImport
  rw [bind_of_ok owned]
  dsimp only
  rw [if_pos present, free, real, if_neg (not_not.mpr under)]
  rfl

end

/-- In any trees, an import that is resolved leads to the same module. -/
theorem resolveImport_deterministic {other : Tree} {importer target target' : Path}
    (resolved : resolveImport workspace tree importer name = .ok target)
    (resolved' : resolveImport workspace other importer name = .ok target') : target = target' := by
  obtain ⟨owner, owned, -⟩ := bind_eq_ok resolved
  cases depends : dependencyOf workspace owner name with
  | some dependency =>
    rw [← ((resolveImport_package owned depends).mp resolved).2,
      ← ((resolveImport_package owned depends).mp resolved').2]
  | none =>
    have beside : ∀ {tree : Tree} {target : Path},
        resolveImport workspace tree importer name = .ok target →
          target = besidePath importer name := by
      intro tree target resolved
      rcases resolveImport_beside owned resolved with same | ⟨dependency, impossible, -⟩
      · exact same
      · rw [depends] at impossible
        cases impossible
    rw [beside resolved, beside resolved']

end Koschei.Workspace
