import Koschei.Types.Contracts
import Koschei.Lib.PathSearch

/-!
# Where the search for capabilities ends

`is_sensitive` remembers the text of every type it is inside of, and does not enter a
type a second time. That ends the search through a declaration that leads back to
the same type. A generic declaration that uses itself at a larger instance leads to
another text every time. The search ends exactly where it meets types of finitely
many texts.
-/

namespace Koschei

open Lib TypeNode

namespace TypeNode

def isCapability : TypeNode → Bool
  | .named name => capabilityTypes.contains name
  | _ => false

/-- The types a type is put together from. -/
def parts : TypeNode → List TypeNode
  | .generic _ arguments => arguments
  | .union options => options
  | _ => []

theorem sizeOf_part {node part : TypeNode} (member : part ∈ node.parts) :
    sizeOf part < sizeOf node := by
  cases node with
  | generic | union =>
    have smaller := List.sizeOf_lt_of_mem member
    simp only [parts, generic.sizeOf_spec, union.sizeOf_spec] at smaller ⊢
    omega
  | unknown | «variable» | named => cases member

end TypeNode

namespace Declarations

variable (decls : Declarations)

/-- The types of the fields, or of the payloads, of one instance of a declaration. -/
def inside : TypeNode → Option (List TypeNode)
  | .generic name arguments => do
    let parameters ← decls.typeParameters? name
    let components ← decls.components? name
    some (components.map (substitute (parameters.zip arguments)))
  | .named name => decls.components? name
  | _ => none

/-- What `is_sensitive` looks at. -/
@[simps]
def landscape : Landscape TypeNode String where
  goal := isCapability
  parts := parts
  inside := decls.inside
  key := render
  part_smaller := sizeOf_part

variable {decls}

theorem isSensitive_eq_search (fuel : Nat) :
    (∀ seen node, isSensitive decls fuel seen node = decls.landscape.search fuel seen node) ∧
    ∀ seen nodes, anySensitive decls fuel seen nodes =
      decls.landscape.searchAny fuel seen nodes := by
  induction fuel with
  | zero =>
    refine ⟨fun seen node => rfl, fun seen nodes => ?_⟩
    cases nodes <;> rfl
  | succ fuel ih =>
    constructor
    · intro seen node
      cases node with
      | unknown | «variable» =>
        simp [isSensitive, Landscape.search, Landscape.searchAny, isCapability, parts, inside]
      | union options =>
        rw [isSensitive, ih.2, Landscape.search_succ rfl, Landscape.searchInside]
        cases found : decls.landscape.searchAny fuel seen options with
        | none => simp [parts, found]
        | some answer => cases answer <;> simp [parts, inside, found]
      | named name =>
        rw [isSensitive, Landscape.search]
        cases declared : decls.components? name <;>
          simp [isCapability, parts, inside, render, Landscape.searchAny, declared, ih.2]
      | generic name arguments =>
        rw [isSensitive, ih.2, Landscape.search]
        cases declared : decls.typeParameters? name <;>
          cases components : decls.components? name <;>
            simp [isCapability, parts, inside, declared, components, ih.2]
    · intro seen nodes
      cases nodes with
      | nil => rfl
      | cons node nodes => rw [anySensitive, Landscape.searchAny, ih.1, ih.2]

theorem finds_of_sensitivity {node : TypeNode} {answer : Bool}
    (searched : Sensitivity decls node answer) : answer = true ↔ decls.landscape.Finds [] node := by
  obtain ⟨fuel, searched⟩ := searched
  rw [(isSensitive_eq_search fuel).1] at searched
  exact (Landscape.search_answer fuel).1 _ _ _ searched

/-- Every declaration's field and payload types are valid. -/
def Validated (decls : Declarations) : Prop :=
  ∀ name components, decls.components? name = some components →
    ∀ component ∈ components, Accepted decls component

end Declarations

open Declarations

/-- `struct Nest<T> { next: Nest<List<T>> }`. -/
def nestDeclarations : Declarations :=
  ⟨[("Nest", ⟨["T"], [("next", .generic "Nest" [.generic "List" [.named "T"]])]⟩)], []⟩

/-- Lists of Ints, nested so many times. -/
def nestedList : Nat → TypeNode
  | 0 => .named "Int"
  | depth + 1 => .generic "List" [nestedList depth]

def nest (depth : Nat) : TypeNode := .generic "Nest" [nestedList depth]

theorem length_render_nest (depth : Nat) :
    (nest depth).render.length < (nest (depth + 1)).render.length := by
  have named : "List".length = 4 := rfl
  simp only [nest, nestedList, render, renderAll, String.intercalate_singleton,
    String.length_append]
  omega

theorem not_finds_nestedList (path : List String) (depth : Nat) :
    ¬ nestDeclarations.landscape.Finds path (nestedList depth) := by
  induction depth with
  | zero =>
    rintro (goal | ⟨member, -⟩ | ⟨opened, -⟩)
    · simp [nestedList, landscape, isCapability, capabilityTypes] at goal
    · cases member
    · cases opened
  | succ depth ih =>
    rintro (goal | ⟨member, found⟩ | ⟨opened, -⟩)
    · cases goal
    · rw [mem_singleton.mp member] at found
      exact ih found
    · cases opened

/-- The search at one nesting runs the search at the next one. -/
theorem nest_asks {path : List String} {depth : Nat} (fresh : (nest depth).render ∉ path) :
    nestDeclarations.landscape.Asks (path, nest depth)
      ((nest depth).render :: path, nest (depth + 1)) := by
  refine .inside rfl ?_ rfl fresh ⟨[], [], rfl, by simp⟩
  intro part member
  rw [mem_singleton.mp member]
  exact not_finds_nestedList path depth

theorem nest_unanswered (fuel : Nat) (path : List String) (depth : Nat) (answer : Bool)
    (shorter : ∀ text ∈ path, text.length < (nest depth).render.length) :
    nestDeclarations.landscape.search fuel path (nest depth) ≠ some answer := by
  induction fuel using Nat.strong_induction_on generalizing path depth answer with
  | _ fuel ih =>
    intro searched
    have fresh : (nest depth).render ∉ path := fun member => (shorter _ member).false
    obtain ⟨smaller, less, answer, next⟩ :=
      Landscape.exists_search_of_asks (nest_asks fresh) searched
    refine ih smaller less _ _ _ ?_ next
    rintro text (_ | ⟨_, member⟩)
    · exact length_render_nest depth
    · exact (shorter text member).trans (length_render_nest depth)

end Koschei
