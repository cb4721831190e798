import Koschei.Lib.Lookup

/-!
# Files of a workspace

The files under the root of a workspace, by the components of their paths. A
symbolic link is kept with what it leads to, since `exists` and the directory walk
follow it. The root, the members and the sources of a workspace are resolved when
the workspace is loaded, so their paths go through no link.
-/

namespace Koschei.Workspace

open Lib

abbrev Bytes : Type := List UInt8

/-- The components of a path under the root of the workspace. -/
abbrev Path : Type := List String

/-- What a link leads to. -/
inductive Target where
  | file
  | directory
  | special
  deriving DecidableEq

/-- An entry of a directory. A link can lead to nothing. -/
inductive Node where
  | file (contents : Bytes)
  | directory
  | special
  | link (leads : Option Target)
  deriving DecidableEq

/-- The entries under the root, each of them in a directory. -/
structure Tree where
  entries : List (Path × Node)
  distinct : (entries.map fst).Nodup
  parents : ∀ path ∈ entries.map fst, path ≠ [] ∧
    (path.dropLast = [] ∨ (path.dropLast, Node.directory) ∈ entries)

namespace Tree

variable (tree : Tree)

def node (path : Path) : Option Node :=
  if path = [] then some .directory else tree.entries.lookup path

/-- `Path.exists`. -/
def present (path : Path) : Bool := match tree.node path with
  | none => false
  | some (.link none) => false
  | some _ => true

/-- `Path.is_symlink`. -/
def isSymlink (path : Path) : Bool := match tree.node path with
  | some (.link _) => true
  | _ => false

/-- The contents of a regular file. -/
def contents (path : Path) : Option Bytes := match tree.node path with
  | some (.file contents) => some contents
  | _ => none

/-- The entries that `os.walk` lists under a directory: those whose path goes on from it. -/
def walk (root : Path) : List (Path × Node) :=
  tree.entries.filter fun entry => root.isPrefixOf entry.1

variable {tree} {root path : Path} {node : Node}

theorem node_eq_some : tree.node path = some node ↔
    path = [] ∧ node = .directory ∨ path ≠ [] ∧ (path, node) ∈ tree.entries := by
  unfold Tree.node
  by_cases empty : path = []
  · rw [if_pos empty]
    simp [empty, eq_comm]
  · rw [if_neg empty]
    rw [lookup_eq_some_iff_mem tree.distinct]
    simp only [empty, false_and, not_false_eq_true, true_and, false_or, ne_eq]

variable {contents : Bytes}

theorem contents_eq_some : tree.contents path = some contents ↔
    tree.node path = some (.file contents) := by
  unfold Tree.contents
  cases tree.node path with
  | none => exact ⟨nofun, nofun⟩
  | some node => cases node <;> simp

theorem contents_eq_some_iff_mem : tree.contents path = some contents ↔
    (path, .file contents) ∈ tree.entries := by
  rw [contents_eq_some, node_eq_some]
  constructor
  · rintro (⟨-, other⟩ | ⟨-, member⟩)
    · cases other
    · exact member
  · exact fun member => .inr ⟨(tree.parents path (mem_map_of_mem member)).1, member⟩

theorem present_of_contents (found : tree.contents path = some contents) :
    tree.present path = true := by
  unfold Tree.present
  rw [contents_eq_some.mp found]

theorem not_symlink_of_contents (found : tree.contents path = some contents) :
    tree.isSymlink path = false := by
  unfold Tree.isSymlink
  rw [contents_eq_some.mp found]

theorem mem_walk : (path, node) ∈ tree.walk root ↔ (path, node) ∈ tree.entries ∧ root <+: path := by
  unfold walk
  rw [mem_filter, List.isPrefixOf_iff_prefix]

end Tree

/-! ## Names of files -/

def fileName (path : Path) : String := path.getLast?.getD ""

/-- The letters after the last dot of a name. -/
def lastPart (name : String) : List Char := (name.toList.reverse.takeWhile (· ≠ '.')).reverse

/-- `PurePosixPath.suffix`: from the last dot on, when there are letters before and after it. -/
def suffix (name : String) : String :=
  if lastPart name = [] ∨ name.toList.length ≤ (lastPart name).length + 1 then ""
  else ofList ('.' :: lastPart name)

/-- `PurePosixPath.stem`. -/
def stem (name : String) : String :=
  if lastPart name = [] ∨ name.toList.length ≤ (lastPart name).length + 1 then name
  else ofList (name.toList.take (name.toList.length - (lastPart name).length - 1))

/-- `name.endswith(".ks")`. -/
def isSource (name : String) : Bool := ".ks".toList.isSuffixOf name.toList

/-- The text of a path. -/
def posix (path : Path) : String := if path = [] then "." else String.intercalate "/" path

theorem isSource_of_suffix {name : String} (source : suffix name = ".ks") : isSource name = true := by
  unfold suffix at source
  split at source
  · exact absurd source (by decide)
  · rename_i long
    have letters : '.' :: lastPart name = ".ks".toList := by
      rw [← source, toList_ofList]
    have more : (lastPart name).length + 1 < name.toList.length := by
      have both := not_or.mp long
      omega
    unfold isSource
    rw [List.isSuffixOf_iff_suffix, ← letters]
    -- The last part follows the letter that stopped the search for it.
    have split : name.toList.reverse.takeWhile (· ≠ '.') ++ name.toList.reverse.dropWhile (· ≠ '.') =
        name.toList.reverse := List.takeWhile_append_dropWhile
    have stopped := List.head?_dropWhile_not (· ≠ '.') name.toList.reverse
    cases rest : name.toList.reverse.dropWhile (· ≠ '.') with
    | nil =>
      rw [rest, append_nil] at split
      have length : (lastPart name).length = name.toList.length := by
        unfold lastPart
        rw [split, reverse_reverse]
      omega
    | cons dot others =>
      rw [rest] at split stopped
      have isDot : dot = '.' := by simpa using stopped
      refine ⟨others.reverse, ?_⟩
      rw [← reverse_reverse name.toList, ← split, isDot]
      unfold lastPart
      simp

theorem isSource_append (name : String) : isSource (name ++ ".ks") = true := by
  unfold isSource
  rw [List.isSuffixOf_iff_suffix, toList_append]
  exact List.suffix_append _ _

end Koschei.Workspace
