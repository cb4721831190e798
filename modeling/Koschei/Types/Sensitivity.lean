import Koschei.Types.Rendering
import Koschei.Types.Search

/-!
# Sensitive types against runtime values

`is_sensitive` searches the declarations for a capability and treats three kinds
of types as harmless that are not: the unknown type, the bare name of a
container, and the bare name of a generic declaration. Where all of these are
written out, the search finds every capability a value can hold.

`Exact` types are written out. `Carries n t` says that a capability is reached
from `t` in `n` steps. The search is complete on exact types, since a step it
leaves out leads to a type it has already met. A value of an exact type that
carries no capability holds none: its recorded type is assignable to the type,
and assignability passes a capability on.
-/

set_option autoImplicit false
set_option linter.unusedSectionVars false

namespace Koschei

open TypeNode

/-! ## Types that are written out -/

/-- A name is declared with the given number of type parameters, and is no name of a container
or of a capability. -/
def Declarations.Generic (decls : Declarations) (name : String) (arity : Nat) : Prop :=
  (genericArity name = none ∧ name ∉ capabilityTypes) ∧ ∃ parameters, decls.typeParameters? name = some parameters ∧
    parameters.length = arity ∧ arity ≠ 0

section Exact

variable (decls : Declarations) (scope : String → Prop) (parameters : List String)

mutual
/-- No unknown type, every container and every generic declaration with its arguments, type
variables only for the given parameters, and only names of the scope. -/
def Exact : TypeNode → Prop
  | .unknown => False
  | .variable name => name ∈ parameters ∧ Ident name
  | .named name => Ident name ∧ scope name ∧ genericArity name = none ∧
      (decls.typeParameters? name = none ∨ decls.typeParameters? name = some [])
  | .generic name arguments => (Ident name ∧ scope name ∧
      ((genericArity name = some arguments.length ∧ decls.typeParameters? name = none) ∨
        decls.Generic name arguments.length)) ∧ ExactAll arguments
  | .union options => 2 ≤ options.length ∧ (∀ option ∈ options, option.isLeaf = true) ∧
      ExactAll options

def ExactAll : List TypeNode → Prop
  | [] => True
  | node :: nodes => Exact node ∧ ExactAll nodes
end

end Exact

/-- The types of the fields and payloads of the declarations in the scope are written out. -/
def ScopeExact (decls : Declarations) (scope : String → Prop) : Prop :=
  ∀ name, scope name → ∀ parameters components, decls.typeParameters? name = some parameters →
    decls.components? name = some components →
      ∀ component ∈ components, Exact decls scope parameters component

variable {decls : Declarations} {scope : String → Prop} {parameters : List String}

theorem exactAll_iff (nodes : List TypeNode) :
    ExactAll decls scope parameters nodes ↔ ∀ node ∈ nodes, Exact decls scope parameters node := by
  induction nodes with
  | nil => simp [ExactAll]
  | cons node nodes ih => simp [ExactAll, ih]

mutual
theorem Exact.formed : ∀ {node : TypeNode}, Exact decls scope parameters node → Formed node
  | .unknown, exact => exact.elim
  | .variable _, exact => exact.2
  | .named _, exact => exact.1
  | .generic _ _, exact => ⟨exact.1.1, ExactAll.formed exact.2⟩
  | .union _, exact => ⟨exact.1, exact.2.1, ExactAll.formed exact.2.2⟩

theorem ExactAll.formed : ∀ {nodes : List TypeNode}, ExactAll decls scope parameters nodes →
    FormedAll nodes
  | [], _ => trivial
  | _ :: _, exact => ⟨Exact.formed exact.1, ExactAll.formed exact.2⟩
end

mutual
theorem Exact.closed : ∀ {node : TypeNode}, Exact decls scope [] node → closed node = true
  | .unknown, exact => exact.elim
  | .variable _, exact => by cases exact.1
  | .named _, _ => rfl
  | .generic _ _, exact => ExactAll.closed exact.2
  | .union _, exact => ExactAll.closed exact.2.2

theorem ExactAll.closed : ∀ {nodes : List TypeNode}, ExactAll decls scope [] nodes →
    closedAll nodes = true
  | [], _ => rfl
  | _ :: _, exact => by
    rw [closedAll, and_eq_true]
    exact ⟨Exact.closed exact.1, ExactAll.closed exact.2⟩
end

/-! ## Substitution -/

theorem substituteAll_eq_map (mapping : List (String × TypeNode)) (nodes : List TypeNode) :
    substituteAll mapping nodes = nodes.map (substitute mapping) := by
  induction nodes with
  | nil => rfl
  | cons node nodes ih => rw [substituteAll, ih, map_cons]

theorem zip_reverse {α β : Type*} {xs : List α} {ys : List β} (equal : xs.length = ys.length) :
    (xs.zip ys).reverse = xs.reverse.zip ys.reverse :=
  List.reverse_zipWith equal

variable {name : String}

theorem lookup_zip (parameters : List String) (arguments others : List TypeNode)
    (known : name ∈ parameters) (length : parameters.length = arguments.length)
    (sameLength : arguments.length = others.length) :
    ∃ pair ∈ arguments.zip others, (parameters.zip arguments).lookup name = some pair.1 ∧
      (parameters.zip others).lookup name = some pair.2 := by
  induction parameters generalizing arguments others with
  | nil => cases known
  | cons first parameters ih =>
    cases arguments with
    | nil => cases length
    | cons argument arguments =>
      cases others with
      | nil => cases sameLength
      | cons other others =>
        rw [zip_cons_cons, zip_cons_cons, zip_cons_cons, lookup_cons, lookup_cons]
        cases same : name == first with
        | true => exact ⟨(argument, other), mem_cons_self, rfl, rfl⟩
        | false =>
          have later : name ∈ parameters := by
            rcases mem_cons.mp known with rfl | later
            · simp at same
            · exact later
          obtain ⟨pair, inside, found⟩ := ih arguments others later
            (Nat.succ.inj length) (Nat.succ.inj sameLength)
          exact ⟨pair, mem_cons_of_mem _ inside, found⟩

variable {parameters : List String} {arguments : List TypeNode}

/-- The later of two parameters of one name counts, in both lists of arguments. -/
theorem lookup_zip_reverse (known : name ∈ parameters)
    {others : List TypeNode} (length : parameters.length = arguments.length)
    (sameLength : arguments.length = others.length) :
    ∃ pair ∈ arguments.zip others, (parameters.zip arguments).reverse.lookup name = some pair.1 ∧
      (parameters.zip others).reverse.lookup name = some pair.2 := by
  obtain ⟨pair, inside, found⟩ := lookup_zip parameters.reverse arguments.reverse others.reverse
    (mem_reverse.mpr known) (by simpa using length) (by simpa using sameLength)
  refine ⟨pair, ?_, ?_⟩
  · rw [← zip_reverse sameLength, mem_reverse] at inside
    exact inside
  · rw [zip_reverse length, zip_reverse (length.trans sameLength)]
    exact found

theorem exact_unionType {types : List TypeNode} (some_type : types ≠ [])
    (exact : ∀ x ∈ types, Exact decls scope [] x) : Exact decls scope [] (unionType types) := by
  have formed : ∀ x ∈ types, Formed x := fun x member => (exact x member).formed
  have isClosed : ∀ x ∈ types, closed x = true := fun x member => (exact x member).closed
  have optionOf : ∀ {x : TypeNode}, Exact decls scope [] x → ∀ option ∈ x.alternatives,
      Exact decls scope [] option := by
    intro x whole option inside
    cases x with
    | union options => exact (exactAll_iff options).mp whole.2.2 option inside
    | unknown | «variable» | named | generic =>
      rw [mem_singleton.mp inside]
      exact whole
  have options : ∀ option ∈ collected types,
      option.isLeaf = true ∧ Exact decls scope [] option := by
    intro option member
    obtain ⟨x, inTypes, inside⟩ := (mem_collected_closed isClosed).mp member
    exact ⟨alternatives_leaf (formed x inTypes) (isClosed x inTypes) option inside,
      optionOf (exact x inTypes) option inside⟩
  rw [unionType_eq]
  have sorted : ∀ option ∈ (dedupByText (collected types)).mergeSort
      (fun a b => decide (a.render ≤ b.render)), option ∈ collected types := by
    intro option kept
    rw [mem_mergeSort] at kept
    exact mem_of_mem_dedupByText kept
  have nonempty : (dedupByText (collected types)).mergeSort
      (fun a b => decide (a.render ≤ b.render)) ≠ [] := by
    obtain ⟨x, inTypes⟩ := exists_mem_of_ne_nil types some_type
    obtain ⟨option, inside⟩ := exists_mem_of_ne_nil _ (alternatives_nonempty (formed x inTypes))
    obtain ⟨kept, inKept, -⟩ := exists_mem_dedupByText
      ((mem_collected_closed isClosed).mpr ⟨x, inTypes, inside⟩)
    exact ne_nil_of_mem (mem_mergeSort.mpr inKept)
  generalize (dedupByText (collected types)).mergeSort
    (fun a b => decide (a.render ≤ b.render)) = kept at sorted nonempty
  match kept with
  | [] => exact absurd rfl nonempty
  | [node] => exact (options node (sorted node mem_cons_self)).2
  | first :: second :: rest =>
    refine ⟨by simp, fun option member => (options option (sorted option member)).1, ?_⟩
    exact (exactAll_iff _).mpr fun option member => (options option (sorted option member)).2

section Instance

variable {arguments : List TypeNode} (length : parameters.length = arguments.length)
  (exactArguments : ∀ x ∈ arguments, Exact decls scope [] x)

include length exactArguments

mutual
theorem exact_substitute : ∀ {node : TypeNode}, Exact decls scope parameters node →
    Exact decls scope [] (substitute (parameters.zip arguments) node)
  | .unknown, exact => exact.elim
  | .variable name, exact => by
    obtain ⟨pair, inside, found, -⟩ := lookup_zip_reverse exact.1 length rfl
    rw [substitute, found]
    exact exactArguments pair.1 (of_mem_zip inside).1
  | .named name, exact => exact
  | .generic name nodes, exact => by
    refine ⟨?_, exactAll_substitute exact.2⟩
    have same : (substituteAll (parameters.zip arguments) nodes).length = nodes.length := by
      rw [substituteAll_eq_map, length_map]
    rw [same]
    exact exact.1
  | .union options, exact => by
    rw [substitute]
    have all := exactAll_substitute exact.2.2
    refine exact_unionType ?_ ((exactAll_iff _).mp all)
    rw [substituteAll_eq_map]
    intro empty
    rw [map_eq_nil_iff] at empty
    have many := exact.1
    rw [empty] at many
    simp at many

theorem exactAll_substitute : ∀ {nodes : List TypeNode}, ExactAll decls scope parameters nodes →
    ExactAll decls scope [] (substituteAll (parameters.zip arguments) nodes)
  | [], _ => trivial
  | _ :: _, exact => ⟨exact_substitute exact.1, exactAll_substitute exact.2⟩
end

end Instance

/-! ## Assignability of instances -/

theorem isAssignable_of_alternative {expected actual option : TypeNode}
    (leaf : actual.isLeaf = true) (member : option ∈ expected.alternatives)
    (takes : isAssignable option actual = true) : isAssignable expected actual = true := by
  cases expected with
  | union options => exact (isAssignable_union_left leaf options).mpr ⟨option, member, takes⟩
  | unknown | «variable» | named | generic =>
    rw [← mem_singleton.mp member]
    exact takes

variable {expected actual : TypeNode}

theorem exists_alternative (leaf : actual.isLeaf = true)
    (takes : isAssignable expected actual = true) :
    ∃ option ∈ expected.alternatives, isAssignable option actual = true := by
  cases expected with
  | union options => exact (isAssignable_union_left leaf options).mp takes
  | unknown | «variable» | named | generic => exact ⟨_, mem_singleton.mpr rfl, takes⟩

section Covariance

variable {arguments others : List TypeNode} (length : parameters.length = arguments.length)
  (sameLength : arguments.length = others.length)
  (exactArguments : ∀ x ∈ arguments, Exact decls scope [] x)
  (pairs : ∀ pair ∈ arguments.zip others, isAssignable pair.1 pair.2 = true)

include length sameLength exactArguments pairs

mutual
theorem isAssignable_substitute : ∀ {node : TypeNode}, Exact decls scope parameters node →
    isAssignable (substitute (parameters.zip arguments) node)
      (substitute (parameters.zip others) node) = true
  | .unknown, exact => exact.elim
  | .variable name, exact => by
    obtain ⟨pair, inside, first, second⟩ := lookup_zip_reverse exact.1 length sameLength
    rw [substitute, substitute, first, second]
    exact pairs pair inside
  | .named name, _ => isAssignable_refl _
  | .generic name nodes, exact => by
    rw [substitute, substitute, isAssignable_generic_iff]
    refine ⟨rfl, ?_, assignablePairs_substitute exact.2⟩
    rw [substituteAll_eq_map, substituteAll_eq_map, length_map, length_map]
  | .union options, exact => by
    have allPairs := assignablePairs_substitute exact.2.2
    have exactOptions := (exactAll_iff _).mp (exactAll_substitute length exactArguments exact.2.2)
    rw [substitute, substitute, isAssignable_iff_leaves]
    intro leaf member
    -- A leaf of the actual union is a leaf of one of its options, and the expected option
    -- that takes it has its alternatives among those of the expected union.
    rcases leaves_unionType member with rfl | ⟨other, inOthers, inOther⟩
    · exact isAssignable_unknown_right _
    · rcases isLeaf_of_mem_leaves other inOther with rfl | isLeaf
      · exact isAssignable_unknown_right _
      · rw [substituteAll_eq_map] at inOthers
        obtain ⟨option, inOptions, rfl⟩ := mem_map.mp inOthers
        have both : (substitute (parameters.zip arguments) option,
            substitute (parameters.zip others) option) ∈
            (substituteAll (parameters.zip arguments) options).zip
              (substituteAll (parameters.zip others) options) := by
          rw [substituteAll_eq_map, substituteAll_eq_map, List.zip_map']
          exact mem_map.mpr ⟨option, inOptions, rfl⟩
        have takes := (isAssignable_iff_leaves _ _).mp (allPairs _ both) leaf inOther
        obtain ⟨alternative, inside, accepted⟩ := exists_alternative isLeaf takes
        refine isAssignable_of_alternative isLeaf ?_ accepted
        have expected : substitute (parameters.zip arguments) option ∈
            substituteAll (parameters.zip arguments) options := (of_mem_zip both).1
        exact (alternatives_unionType (ne_nil_of_mem expected)
          (fun x inside => (exactOptions x inside).formed)
          fun x inside => (exactOptions x inside).closed).mpr ⟨_, expected, inside⟩

theorem assignablePairs_substitute : ∀ {nodes : List TypeNode},
    ExactAll decls scope parameters nodes →
      ∀ pair ∈ (substituteAll (parameters.zip arguments) nodes).zip
        (substituteAll (parameters.zip others) nodes), isAssignable pair.1 pair.2 = true
  | [], _, _, member => by cases member
  | node :: nodes, exact, pair, member => by
    rw [substituteAll, substituteAll, zip_cons_cons] at member
    rcases mem_cons.mp member with rfl | later
    · exact isAssignable_substitute exact.1
    · exact assignablePairs_substitute exact.2 pair later
end

end Covariance

/-! ## The search for capabilities -/

/-- A capability is reached from the type in the given number of steps. -/
inductive Carries (decls : Declarations) : Nat → TypeNode → Prop where
  | capability {name : String} : name ∈ capabilityTypes → Carries decls 0 (.named name)
  | option {n : Nat} {option : TypeNode} {options : List TypeNode} :
      option ∈ options → Carries decls n option → Carries decls (n + 1) (.union options)
  | argument {n : Nat} {name : String} {argument : TypeNode} {arguments : List TypeNode} :
      argument ∈ arguments → Carries decls n argument →
        Carries decls (n + 1) (.generic name arguments)
  | instance {n : Nat} {name : String} {arguments : List TypeNode} {parameters : List String}
      {component : TypeNode} {components : List TypeNode} :
      decls.typeParameters? name = some parameters → decls.components? name = some components →
      component ∈ components →
      Carries decls n (substitute (parameters.zip arguments) component) →
        Carries decls (n + 1) (.generic name arguments)
  | component {n : Nat} {name : String} {component : TypeNode} {components : List TypeNode} :
      decls.components? name = some components → component ∈ components →
      Carries decls n component → Carries decls (n + 1) (.named name)

variable {components : List TypeNode}

section

variable (whole : ScopeExact decls scope)

include whole

theorem exact_component (exact : Exact decls scope [] (.named name))
    (parts : decls.components? name = some components) :
    ∀ component ∈ components, Exact decls scope [] component := by
  have declared : decls.typeParameters? name = some [] := by
    rcases exact.2.2.2 with missing | present
    · unfold Declarations.typeParameters? at missing
      unfold Declarations.components? at parts
      cases structs : decls.struct? name with
      | some shape =>
        rw [structs] at missing
        cases missing
      | none =>
        rw [structs] at missing parts
        rw [Option.map_eq_none_iff] at missing
        rw [missing] at parts
        cases parts
    · exact present
  exact whole name exact.2.1 [] components declared parts

theorem exact_instance (exact : Exact decls scope [] (.generic name arguments))
    (declared : decls.typeParameters? name = some parameters)
    (parts : decls.components? name = some components) :
    parameters.length = arguments.length ∧ (∀ x ∈ arguments, Exact decls scope [] x) ∧
      ∀ component ∈ components, Exact decls scope parameters component ∧
        Exact decls scope [] (substitute (parameters.zip arguments) component) := by
  obtain ⟨⟨-, inScope, shape⟩, all⟩ := exact
  have length : parameters.length = arguments.length := by
    rcases shape with ⟨-, undeclared⟩ | ⟨-, found, known, arity, -⟩
    · rw [undeclared] at declared
      cases declared
    · rw [declared, some.injEq] at known
      rw [known]
      exact arity
  have exactArguments := (exactAll_iff arguments).mp all
  refine ⟨length, exactArguments, fun component member => ?_⟩
  have general := whole name inScope parameters components declared parts component member
  exact ⟨general, exact_substitute length exactArguments general⟩

/-- Where the search finds nothing but a capability is reached, a type it has remembered
reaches one in no more steps. -/
theorem remembered_of_carries (n : Nat) :
    ∀ {node : TypeNode} {seen : List String}, Exact decls scope [] node →
      ¬ decls.landscape.Finds seen node → Carries decls n node →
      ∃ w m, m ≤ n ∧ Carries decls m w ∧ Exact decls scope [] w ∧ w.render ∈ seen := by
  induction n using Nat.strong_induction_on with
  | _ n ih =>
    intro node seen exact quiet carries
    -- Past the type itself, either an older type is met or the type again, from where
    -- fewer steps remain.
    have descend : ∀ {child : TypeNode} {m : Nat}, m < n → Exact decls scope [] child →
        Carries decls m child → ¬ decls.landscape.Finds (node.render :: seen) child →
        ∃ w k, k ≤ n ∧ Carries decls k w ∧ Exact decls scope [] w ∧ w.render ∈ seen := by
      intro child m less childExact childCarries childQuiet
      obtain ⟨w, k, steps, wCarries, wExact, met⟩ := ih m less childExact childQuiet childCarries
      rcases mem_cons.mp met with again | older
      · have same := render_injective wExact.formed wExact.closed exact.formed exact.closed again
        subst same
        obtain ⟨x, j, fewer, xCarries, xExact, xMet⟩ := ih k (by omega) exact quiet wCarries
        exact ⟨x, j, by omega, xCarries, xExact, xMet⟩
      · exact ⟨w, k, by omega, wCarries, wExact, older⟩
    cases carries with
    | capability known => exact absurd (.goal (by simpa [isCapability] using known)) quiet
    | @option m option options member child =>
      obtain ⟨w, k, steps, found⟩ := ih m (by omega)
        ((exactAll_iff options).mp exact.2.2 option member)
        (fun found => quiet (.part member found)) child
      exact ⟨w, k, by omega, found⟩
    | @argument m name argument arguments member child =>
      obtain ⟨w, k, steps, found⟩ := ih m (by omega)
        ((exactAll_iff arguments).mp exact.2 argument member)
        (fun found => quiet (.part member found)) child
      exact ⟨w, k, by omega, found⟩
    | @«instance» m name arguments parameters component components declared parts member child =>
      by_cases met : (TypeNode.generic name arguments).render ∈ seen
      · exact ⟨_, m + 1, le_refl _, .instance declared parts member child, exact, met⟩
      · refine descend (by omega)
          ((exact_instance whole exact declared parts).2.2 component member).2 child
          fun found => quiet (.inside ?_ met (mem_map_of_mem member) found)
        simp [Declarations.inside, declared, parts]
    | @component m name component components parts member child =>
      by_cases met : name ∈ seen
      · exact ⟨_, m + 1, le_refl _, .component parts member child, exact, met⟩
      · exact descend (by omega) (exact_component whole exact parts component member) child
          fun found => quiet (.inside parts met member found)

/-- The search finds every capability that is reached. -/
theorem not_carries_of_insensitive {node : TypeNode}
    (exact : Exact decls scope [] node) (insensitive : Sensitivity decls node false) (n : Nat) :
    ¬ Carries decls n node := by
  have quiet : ¬ decls.landscape.Finds [] node := by
    simpa using Declarations.finds_of_sensitivity insensitive
  intro carries
  obtain ⟨w, m, -, -, -, met⟩ := remembered_of_carries whole n exact quiet carries
  cases met

/-! ## Capabilities along assignability -/

omit whole in
theorem not_exact_both {arguments : List TypeNode} (bare : Exact decls scope [] (.named name))
    (applied : Exact decls scope [] (.generic name arguments)) : False := by
  obtain ⟨-, -, noContainer, noParameters⟩ := bare
  rcases applied.1.2.2 with ⟨container, -⟩ | ⟨-, parameters, declared, length, some_parameter⟩
  · rw [noContainer] at container
    cases container
  · rcases noParameters with missing | empty
    · rw [missing] at declared
      cases declared
    · rw [empty, some.injEq] at declared
      rw [← declared] at length
      exact some_parameter length.symm

omit whole in
theorem eq_of_isAssignable_named {name other : String}
    (takes : isAssignable (.named other) (.named name) = true) : other = name := by
  unfold isAssignable at takes
  simpa using takes

omit whole in
theorem exists_left_of_mem_zip {xs ys : List TypeNode} (length : xs.length = ys.length)
    {y : TypeNode} (member : y ∈ ys) : ∃ x, (x, y) ∈ xs.zip ys := by
  induction xs generalizing ys with
  | nil =>
    rw [length_nil, eq_comm, length_eq_zero_iff] at length
    rw [length] at member
    cases member
  | cons x xs ih =>
    cases ys with
    | nil => cases member
    | cons z ys =>
      rw [zip_cons_cons]
      rcases mem_cons.mp member with rfl | later
      · exact ⟨x, mem_cons_self⟩
      · obtain ⟨w, inside⟩ := ih (Nat.succ.inj length) later
        exact ⟨w, mem_cons_of_mem _ inside⟩

omit whole in
/-- A union of the expected side passes the question on to one of its options. -/
theorem carries_of_option (leaf : actual.isLeaf = true)
    (exact : Exact decls scope [] expected) (takes : isAssignable expected actual = true)
    (onNamed : ∀ name, Exact decls scope [] (.named name) →
      isAssignable (.named name) actual = true → ∃ m, Carries decls m (.named name))
    (onGeneric : ∀ name arguments, Exact decls scope [] (.generic name arguments) →
      isAssignable (.generic name arguments) actual = true →
        ∃ m, Carries decls m (.generic name arguments)) : ∃ m, Carries decls m expected := by
  have onLeaf : ∀ option : TypeNode, option.isLeaf = true → Exact decls scope [] option →
      isAssignable option actual = true → ∃ m, Carries decls m option := by
    intro option leaf exact takes
    cases option with
    | unknown | union => cases leaf
    | «variable» => cases exact.1
    | named name => exact onNamed name exact takes
    | generic name arguments => exact onGeneric name arguments exact takes
  cases expected with
  | unknown => exact exact.elim
  | union options =>
    obtain ⟨option, member, accepted⟩ := exists_alternative leaf takes
    obtain ⟨m, found⟩ := onLeaf option (exact.2.1 option member)
      ((exactAll_iff options).mp exact.2.2 option member) accepted
    exact ⟨m + 1, .option member found⟩
  | «variable» | named | generic => exact onLeaf _ rfl exact takes

/-- A capability reached from a type is reached from every type it is assignable to. -/
theorem carries_of_isAssignable {n : Nat} (carries : Carries decls n actual) :
    ∀ {expected : TypeNode}, Exact decls scope [] expected → Exact decls scope [] actual →
      isAssignable expected actual = true → ∃ m, Carries decls m expected := by
  induction carries with
  | @capability name known =>
    intro expected exact actualExact takes
    refine carries_of_option rfl exact takes ?_ ?_
    · intro other _ accepted
      rw [eq_of_isAssignable_named accepted]
      exact ⟨0, .capability known⟩
    · intro other arguments applied accepted
      rw [isAssignable_generic_named] at accepted
      rw [accepted] at applied
      exact (not_exact_both actualExact applied).elim
  | @option m option options member child ih =>
    intro expected exact actualExact takes
    exact ih exact ((exactAll_iff options).mp actualExact.2.2 option member)
      ((isAssignable_union_right expected options).mp takes option member)
  | @argument m name argument others member child ih =>
    intro expected exact actualExact takes
    refine carries_of_option rfl exact takes ?_ ?_
    · intro other bare accepted
      rw [isAssignable_named_generic] at accepted
      rw [accepted] at bare
      exact (not_exact_both bare actualExact).elim
    · intro other arguments applied accepted
      rw [isAssignable_generic_iff] at accepted
      obtain ⟨rfl, length, pairs⟩ := accepted
      obtain ⟨x, inside⟩ := exists_left_of_mem_zip length member
      have left : x ∈ arguments := (of_mem_zip inside).1
      obtain ⟨k, found⟩ := ih ((exactAll_iff arguments).mp applied.2 x left)
        ((exactAll_iff others).mp actualExact.2 argument member) (pairs _ inside)
      exact ⟨k + 1, .argument left found⟩
  | @«instance» m name others parameters component components declared parts member child ih =>
    intro expected exact actualExact takes
    refine carries_of_option rfl exact takes ?_ ?_
    · intro other bare accepted
      rw [isAssignable_named_generic] at accepted
      rw [accepted] at bare
      exact (not_exact_both bare actualExact).elim
    · intro other arguments applied accepted
      rw [isAssignable_generic_iff] at accepted
      obtain ⟨rfl, sameLength, pairs⟩ := accepted
      obtain ⟨length, exactArguments, exactParts⟩ := exact_instance whole applied declared parts
      obtain ⟨general, instantiated⟩ := exactParts component member
      obtain ⟨-, -, otherParts⟩ := exact_instance whole actualExact declared parts
      obtain ⟨k, found⟩ := ih instantiated (otherParts component member).2
        (isAssignable_substitute length sameLength exactArguments pairs general)
      exact ⟨k + 1, .instance declared parts member found⟩
  | @component m name component components parts member child ih =>
    intro expected exact actualExact takes
    refine carries_of_option rfl exact takes ?_ ?_
    · intro other _ accepted
      rw [eq_of_isAssignable_named accepted]
      exact ⟨m + 1, .component parts member child⟩
    · intro other arguments applied accepted
      rw [isAssignable_generic_named] at accepted
      rw [accepted] at applied
      exact (not_exact_both actualExact applied).elim

end

/-! ## Values -/

/-- The declared type of a field or a payload at the recorded type arguments. -/
def instantiated (parameters : List String) (typeArguments : List TypeText)
    (declared : TypeNode) : TypeNode :=
  if typeArguments.isEmpty then declared.bindTypeVariables parameters
  else substitute (parameters.zip (typeArguments.map TypeText.node))
    (declared.bindTypeVariables parameters)

namespace Held

mutual
/-- The fields and payloads of a value match their declared types, at every depth. -/
def WellTyped (decls : Declarations) : Held → Prop
  | .struct name fields typeArguments =>
    (∃ shape, decls.struct? name = some shape ∧ typeArguments.length = shape.typeParameters.length ∧
      ∀ field ∈ fields, ∃ declared, (field.1, declared) ∈ shape.fields ∧
        matchesNode (instantiated shape.typeParameters typeArguments declared) field.2 = true) ∧
      WellTypedEntries decls fields
  | .enum name variant payload typeArguments =>
    (if name = "Option" ∨ name = "Result" then variant = "None" → payload = none
      else ∃ shape, decls.enum? name = some shape ∧
        typeArguments.length = shape.typeParameters.length ∧
        ∀ item, payload = some item → ∃ declared, (variant, some declared) ∈ shape.variants ∧
          matchesNode (instantiated shape.typeParameters typeArguments declared) item = true) ∧
      WellTypedPayload decls payload
  | .list items => WellTypedItems decls items
  | .map entries => WellTypedEntries decls entries
  | .unit | .bool _ | .int _ | .float _ | .str _ | .error _ | .capability _ | .other _ => True

def WellTypedItems (decls : Declarations) : List Held → Prop
  | [] => True
  | item :: items => WellTyped decls item ∧ WellTypedItems decls items

def WellTypedEntries (decls : Declarations) : List (String × Held) → Prop
  | [] => True
  | (_, item) :: entries => WellTyped decls item ∧ WellTypedEntries decls entries

def WellTypedPayload (decls : Declarations) : Option Held → Prop
  | none => True
  | some item => WellTyped decls item
end

mutual
/-- The declared types of the fields and payloads a value has are written out at the recorded
type arguments, and no enum value shares its name with a struct. -/
def ExactValue (decls : Declarations) (scope : String → Prop) : Held → Prop
  | .struct name fields typeArguments =>
    (∀ shape, decls.struct? name = some shape → ∀ field ∈ fields, ∀ declared,
      (field.1, declared) ∈ shape.fields →
        Exact decls scope [] (instantiated shape.typeParameters typeArguments declared)) ∧
      ExactEntries decls scope fields
  | .enum name variant payload typeArguments =>
    (decls.struct? name = none ∧ ∀ shape, decls.enum? name = some shape → payload.isSome →
      ∀ declared, (variant, some declared) ∈ shape.variants →
        Exact decls scope [] (instantiated shape.typeParameters typeArguments declared)) ∧
      ExactPayload decls scope payload
  | .list items => ExactItems decls scope items
  | .map entries => ExactEntries decls scope entries
  | .unit | .bool _ | .int _ | .float _ | .str _ | .error _ | .capability _ | .other _ => True

def ExactItems (decls : Declarations) (scope : String → Prop) : List Held → Prop
  | [] => True
  | item :: items => ExactValue decls scope item ∧ ExactItems decls scope items

def ExactEntries (decls : Declarations) (scope : String → Prop) : List (String × Held) → Prop
  | [] => True
  | (_, item) :: entries => ExactValue decls scope item ∧ ExactEntries decls scope entries

def ExactPayload (decls : Declarations) (scope : String → Prop) : Option Held → Prop
  | none => True
  | some item => ExactValue decls scope item
end

/-! ### What matching an exact type says -/

/-- What it means for a value to match an exact type that is no union: the type is an
instantiated container, or the value's own type has its name and is assignable to it. -/
inductive Matched (decls : Declarations) (scope : String → Prop) (value : Held) :
    TypeNode → Prop where
  | option {item : TypeNode} : matchesOption (matchesNode item) value = true →
      Matched decls scope value (.generic "Option" [item])
  | result {ok err : TypeNode} : matchesResult (matchesNode ok) (matchesNode err) value = true →
      Matched decls scope value (.generic "Result" [ok, err])
  | list {item : TypeNode} : matchesList (matchesNode item) value = true →
      Matched decls scope value (.generic "List" [item])
  | map {key item : TypeNode} : matchesMap (matchesNode key) (matchesNode item) value = true →
      Matched decls scope value (.generic "Map" [key, item])
  | declared {name : String} {node : TypeNode} : genericArity name = none →
      node.headName = some name → value.runtimeTypeNode.headName = some name →
      isAssignable node value.runtimeTypeNode = true → Matched decls scope value node

variable {name variant : String} {value : Held}

theorem matched_named (exact : Exact decls scope [] (.named name))
    (found : matchesNode (.named name) value = true) : Matched decls scope value (.named name) := by
  have container := exact.2.2.1
  rcases genericArity_cases name with ⟨-, known⟩ | ⟨-, known⟩ | ⟨-, known⟩ | ⟨-, known⟩ |
    ⟨⟨notOption, notResult, notList, notMap⟩, -⟩
  · simp [known] at container
  · simp [known] at container
  · simp [known] at container
  · simp [known] at container
  · simp only [matchesNode, matchesName, notOption, notResult, notList, notMap, if_false,
      or_self] at found
    cases runtime : value.runtimeTypeNode with
    | generic other others =>
      simp only [runtime, beq_iff_eq] at found
      subst found
      exact .declared container rfl (by rw [runtime]; rfl)
        (by rw [runtime]; exact (isAssignable_named_generic _ _ _).mpr rfl)
    | named other =>
      simp only [runtime, decide_eq_true_eq, named.injEq] at found
      subst found
      exact .declared container rfl (by rw [runtime]; rfl)
        (by rw [runtime]; exact isAssignable_refl _)
    | unknown | «variable» | union => simp [runtime] at found

theorem matched_generic (exact : Exact decls scope [] (.generic name arguments))
    (found : matchesNode (.generic name arguments) value = true) :
    Matched decls scope value (.generic name arguments) := by
  obtain ⟨⟨-, -, shape⟩, -⟩ := exact
  rcases shape with ⟨container, -⟩ | ⟨⟨noContainer, -⟩, -⟩
  · rcases genericArity_cases name with ⟨rfl, known⟩ | ⟨rfl, known⟩ | ⟨rfl, known⟩ |
      ⟨rfl, known⟩ | ⟨-, known⟩
    · rw [known, some.injEq, eq_comm, length_eq_one_iff] at container
      obtain ⟨item, rfl⟩ := container
      exact .option (by rwa [matchesNode_option] at found)
    · rw [known, some.injEq, eq_comm, List.length_eq_two] at container
      obtain ⟨ok, err, rfl⟩ := container
      exact .result (by rwa [matchesNode_result] at found)
    · rw [known, some.injEq, eq_comm, length_eq_one_iff] at container
      obtain ⟨item, rfl⟩ := container
      exact .list (by rwa [matchesNode_list] at found)
    · rw [known, some.injEq, eq_comm, List.length_eq_two] at container
      obtain ⟨key, item, rfl⟩ := container
      exact .map (by rwa [matchesNode_map] at found)
    · rw [known] at container
      cases container
  · rcases genericArity_cases name with ⟨-, known⟩ | ⟨-, known⟩ | ⟨-, known⟩ | ⟨-, known⟩ |
      ⟨outside, -⟩
    · simp [known] at noContainer
    · simp [known] at noContainer
    · simp [known] at noContainer
    · simp [known] at noContainer
    · rw [matchesNode_declared outside] at found
      unfold matchesDeclared at found
      cases runtime : value.runtimeTypeNode with
      | generic other others =>
        simp only [runtime, and_eq_true, beq_iff_eq] at found
        obtain ⟨rfl, takes⟩ := found
        exact .declared noContainer rfl (by rw [runtime]; rfl) (by rw [runtime]; exact takes)
      | named other =>
        simp only [runtime, and_eq_true, beq_iff_eq] at found
        obtain ⟨rfl, takes⟩ := found
        exact .declared noContainer rfl (by rw [runtime]; rfl) (by rw [runtime]; exact takes)
      | unknown | «variable» | union => simp [runtime] at found

/-- A value that matches an exact type matches one of its alternatives, from which no more
capabilities are reached than from the type. -/
theorem exists_matched {node : TypeNode} (exact : Exact decls scope [] node)
    (harmless : ∀ n, ¬ Carries decls n node) (found : matchesNode node value = true) :
    ∃ option, Exact decls scope [] option ∧ (∀ n, ¬ Carries decls n option) ∧
      Matched decls scope value option := by
  have onLeaf : ∀ option : TypeNode, option.isLeaf = true → Exact decls scope [] option →
      matchesNode option value = true → Matched decls scope value option := by
    intro option leaf exact found
    cases option with
    | unknown | union => cases leaf
    | «variable» => cases exact.1
    | named name => exact matched_named exact found
    | generic name arguments => exact matched_generic exact found
  cases node with
  | unknown => exact exact.elim
  | «variable» => cases exact.1
  | union options =>
    obtain ⟨option, member, matched⟩ := (matchesAny_iff options value).mp found
    have optionExact := (exactAll_iff options).mp exact.2.2 option member
    refine ⟨option, optionExact, fun n carries => harmless (n + 1) (.option member carries), ?_⟩
    exact onLeaf option (exact.2.1 option member) optionExact matched
  | named | generic => exact ⟨_, exact, harmless, onLeaf _ rfl exact found⟩

variable {typeArguments : List TypeText}

/-- The type of a field or a payload of a value that matches a harmless type is harmless. -/
theorem harmless_component (whole : ScopeExact decls scope) {node : TypeNode}
    {components : List TypeNode} {declared : TypeNode} (exact : Exact decls scope [] node)
    (harmless : ∀ n, ¬ Carries decls n node) (head : node.headName = some name)
    (takes : isAssignable node (declaredNode name typeArguments) = true)
    (known : decls.typeParameters? name = some parameters)
    (parts : decls.components? name = some components)
    (length : typeArguments.length = parameters.length)
    (member : declared.bindTypeVariables parameters ∈ components)
    (written : Exact decls scope [] (instantiated parameters typeArguments declared)) :
    ∀ n, ¬ Carries decls n (instantiated parameters typeArguments declared) := by
  intro n carries
  cases node with
  | unknown | «variable» | union => cases head
  | named other =>
    cases some.inj head
    have none_needed : parameters = [] := by
      rcases exact.2.2.2 with missing | empty
      · rw [missing] at known
        cases known
      · rw [empty, some.injEq] at known
        exact known.symm
    rw [none_needed, length_nil, length_eq_zero_iff] at length
    rw [instantiated, length, List.isEmpty_nil, if_pos rfl] at carries
    exact harmless (n + 1) (.component parts member carries)
  | generic other arguments =>
    cases some.inj head
    obtain ⟨sameLength, exactArguments, exactParts⟩ := exact_instance whole exact known parts
    obtain ⟨general, expected⟩ := exactParts _ member
    have nonempty : typeArguments.isEmpty = false := by
      rcases exact.1.2.2 with ⟨-, undeclared⟩ | ⟨-, found, declaredAs, arity, positive⟩
      · rw [undeclared] at known
        cases known
      · rw [List.isEmpty_eq_false_iff, ← List.length_pos_iff]
        omega
    rw [declaredNode, nonempty, if_neg false_ne_true, isAssignable_generic_iff] at takes
    rw [instantiated, nonempty, if_neg false_ne_true] at carries written
    have assignable := isAssignable_substitute sameLength takes.2.1 exactArguments takes.2.2 general
    obtain ⟨m, found⟩ := carries_of_isAssignable whole carries expected written assignable
    exact harmless (m + 1) (.instance known parts member found)

/-- A value stands at a type that is written out and from which no capability is reached. -/
def Harmless (decls : Declarations) (scope : String → Prop) (value : Held) : Prop :=
  ∃ node, Exact decls scope [] node ∧ (∀ n, ¬ Carries decls n node) ∧ matchesNode node value = true

theorem typeName_mem (kind : Capability) : kind.typeName ∈ capabilityTypes := by
  cases kind <;> decide

theorem not_harmless_capability (kind : Capability) :
    ¬ Harmless decls scope (.capability kind) := by
  rintro ⟨node, exact, harmless, found⟩
  obtain ⟨option, optionExact, optionHarmless, matched⟩ := exists_matched exact harmless found
  cases matched with
  | option impossible | result impossible | list impossible | map impossible => cases impossible
  | @declared name option container head runtime takes =>
    have name_eq : kind.typeName = name := some.inj runtime
    subst name_eq
    cases option with
    | unknown | «variable» | union => cases head
    | named other =>
      cases some.inj head
      exact optionHarmless 0 (.capability (typeName_mem kind))
    | generic other arguments =>
      cases some.inj head
      rcases optionExact.1.2.2 with ⟨isContainer, -⟩ | ⟨⟨-, noCapability⟩, -⟩
      · rw [container] at isContainer
        cases isContainer
      · exact noCapability (typeName_mem kind)

theorem harmless_items {items : List Held} (harmless : Harmless decls scope (.list items)) :
    ∀ item ∈ items, Harmless decls scope item := by
  obtain ⟨node, exact, none_reached, found⟩ := harmless
  obtain ⟨option, optionExact, optionHarmless, matched⟩ := exists_matched exact none_reached found
  cases matched with
  | option impossible | result impossible | map impossible => cases impossible
  | @list node all =>
    intro item member
    refine ⟨node, optionExact.2.1, fun n carries => ?_, all_eq_true.mp all item member⟩
    exact optionHarmless (n + 1) (.argument (mem_singleton.mpr rfl) carries)
  | declared container head runtime takes =>
    cases some.inj runtime
    cases container

theorem harmless_entries {entries : List (String × Held)}
    (harmless : Harmless decls scope (.map entries)) :
    ∀ entry ∈ entries, Harmless decls scope entry.2 := by
  obtain ⟨node, exact, none_reached, found⟩ := harmless
  obtain ⟨option, optionExact, optionHarmless, matched⟩ := exists_matched exact none_reached found
  cases matched with
  | option impossible | result impossible | list impossible => cases impossible
  | @map key node all =>
    intro entry member
    have both := all_eq_true.mp all entry member
    rw [and_eq_true] at both
    refine ⟨node, optionExact.2.2.1, fun n carries => ?_, both.2⟩
    exact optionHarmless (n + 1) (.argument (mem_cons_of_mem key (mem_singleton.mpr rfl)) carries)
  | declared container head runtime takes =>
    cases some.inj runtime
    cases container

theorem headName_declaredNode (name : String) (typeArguments : List TypeText) :
    (declaredNode name typeArguments).headName = some name := by
  unfold declaredNode
  split <;> rfl

/-- An Option or a Result is never taken for a value of a declared type. -/
theorem headName_builtin {payload : Option Held} (builtin : name = "Option" ∨ name = "Result") :
    (runtimeTypeNode (.enum name variant payload typeArguments)).headName = some name := by
  rcases builtin with rfl | rfl
  · rfl
  · by_cases ok : variant = "Ok"
    · simp [runtimeTypeNode, ok, headName]
    · simp [runtimeTypeNode, ok, headName]

theorem harmless_fields (whole : ScopeExact decls scope) {fields : List (String × Held)}
    (harmless : Harmless decls scope (.struct name fields typeArguments))
    (typed : WellTyped decls (.struct name fields typeArguments))
    (written : ExactValue decls scope (.struct name fields typeArguments)) :
    ∀ field ∈ fields, Harmless decls scope field.2 := by
  obtain ⟨node, exact, none_reached, found⟩ := harmless
  obtain ⟨option, optionExact, optionHarmless, matched⟩ := exists_matched exact none_reached found
  obtain ⟨⟨shape, declaredAs, length, matches_⟩, -⟩ := typed
  cases matched with
  | option impossible | result impossible | list impossible | map impossible => cases impossible
  | @declared other option container head runtime takes =>
    have same : name = other := by
      have recorded := headName_declaredNode name typeArguments
      rw [runtimeTypeNode, recorded] at runtime
      exact some.inj runtime
    subst same
    intro field member
    obtain ⟨declared, inShape, accepted⟩ := matches_ field member
    have exactField := written.1 shape declaredAs field member declared inShape
    have known : decls.typeParameters? name = some shape.typeParameters := by
      rw [Declarations.typeParameters?, declaredAs]
    have parts : decls.components? name = some (shape.fields.map fun field =>
        field.2.bindTypeVariables shape.typeParameters) := by
      rw [Declarations.components?, declaredAs]
    exact ⟨_, exactField, harmless_component whole optionExact optionHarmless head takes known
      parts length (mem_map.mpr ⟨_, inShape, rfl⟩) exactField, accepted⟩

theorem harmless_payload (whole : ScopeExact decls scope) {item : Held}
    (harmless : Harmless decls scope (.enum name variant (some item) typeArguments))
    (typed : WellTyped decls (.enum name variant (some item) typeArguments))
    (written : ExactValue decls scope (.enum name variant (some item) typeArguments)) :
    Harmless decls scope item := by
  obtain ⟨node, exact, none_reached, found⟩ := harmless
  obtain ⟨option, optionExact, optionHarmless, matched⟩ := exists_matched exact none_reached found
  have shape := typed.1
  cases matched with
  | list impossible | map impossible => cases impossible
  | @option node some_ =>
    simp only [matchesOption, and_eq_true, or_eq_true, beq_iff_eq] at some_
    obtain ⟨rfl, nothing | ⟨-, accepted⟩⟩ := some_
    · rw [if_pos (Or.inl rfl)] at shape
      cases shape nothing
    · refine ⟨node, optionExact.2.1, fun n carries => ?_, accepted⟩
      exact optionHarmless (n + 1) (.argument (mem_singleton.mpr rfl) carries)
  | @result ok err either =>
    simp only [matchesResult, and_eq_true, beq_iff_eq] at either
    obtain ⟨rfl, accepted⟩ := either
    split at accepted
    · refine ⟨ok, optionExact.2.1, fun n carries => ?_, accepted⟩
      exact optionHarmless (n + 1) (.argument mem_cons_self carries)
    · split at accepted
      · refine ⟨err, optionExact.2.2.1, fun n carries => ?_, accepted⟩
        exact optionHarmless (n + 1)
          (.argument (mem_cons_of_mem ok (mem_singleton.mpr rfl)) carries)
      · cases accepted
  | @declared other option container head runtime takes =>
    by_cases builtin : name = "Option" ∨ name = "Result"
    · rw [headName_builtin builtin] at runtime
      rw [← some.inj runtime] at container
      rcases builtin with rfl | rfl <;> cases container
    · have recorded : runtimeTypeNode (.enum name variant (some item) typeArguments) =
          declaredNode name typeArguments := by
        rw [not_or] at builtin
        simp only [runtimeTypeNode, builtin.1, builtin.2, if_false]
      rw [recorded] at runtime takes
      rw [headName_declaredNode] at runtime
      have same : name = other := some.inj runtime
      subst same
      rw [if_neg builtin] at shape
      obtain ⟨shape, declaredAs, length, accepts⟩ := shape
      obtain ⟨declared, inShape, accepted⟩ := accepts item rfl
      obtain ⟨noStruct, exactPayload⟩ := written.1
      have exactItem := exactPayload shape declaredAs rfl declared inShape
      have known : decls.typeParameters? name = some shape.typeParameters := by
        rw [Declarations.typeParameters?, noStruct, declaredAs]
        rfl
      have parts : decls.components? name = some ((shape.variants.filterMap snd).map
          (bindTypeVariables shape.typeParameters)) := by
        rw [Declarations.components?, noStruct, declaredAs]
        rfl
      have member : declared.bindTypeVariables shape.typeParameters ∈
          (shape.variants.filterMap snd).map (bindTypeVariables shape.typeParameters) :=
        mem_map_of_mem (mem_filterMap.mpr ⟨_, inShape, rfl⟩)
      exact ⟨_, exactItem, harmless_component whole optionExact optionHarmless head takes known
        parts length member exactItem, accepted⟩

mutual
theorem holds_no_capability (whole : ScopeExact decls scope) : ∀ value : Held,
    Harmless decls scope value → WellTyped decls value → ExactValue decls scope value →
      containsCapability value = false
  | .capability kind, harmless, _, _ => (not_harmless_capability kind harmless).elim
  | .list items, harmless, typed, written =>
    items_hold_no_capability whole items (harmless_items harmless) typed written
  | .map entries, harmless, typed, written =>
    entries_hold_no_capability whole entries (harmless_entries harmless) typed written
  | .struct _ fields _, harmless, typed, written =>
    entries_hold_no_capability whole fields (harmless_fields whole harmless typed written)
      typed.2 written.2
  | .enum _ _ none _, _, _, _ => rfl
  | .enum _ _ (some item) _, harmless, typed, written =>
    holds_no_capability whole item (harmless_payload whole harmless typed written) typed.2 written.2
  | .unit, _, _, _ | .bool _, _, _, _ | .int _, _, _, _ | .float _, _, _, _ | .str _, _, _, _
  | .error _, _, _, _ | .other _, _, _, _ => rfl

theorem items_hold_no_capability (whole : ScopeExact decls scope) : ∀ items : List Held,
    (∀ item ∈ items, Harmless decls scope item) → WellTypedItems decls items →
      ExactItems decls scope items → itemsContain items = false
  | [], _, _, _ => rfl
  | item :: items, harmless, typed, written => by
    rw [itemsContain, or_eq_false_iff]
    refine ⟨holds_no_capability whole item (harmless item mem_cons_self) typed.1 written.1,
      items_hold_no_capability whole items ?_ typed.2 written.2⟩
    intro other member
    exact harmless other (mem_cons_of_mem item member)

theorem entries_hold_no_capability (whole : ScopeExact decls scope) :
    ∀ entries : List (String × Held), (∀ entry ∈ entries, Harmless decls scope entry.2) →
      WellTypedEntries decls entries → ExactEntries decls scope entries →
        entriesContain entries = false
  | [], _, _, _ => rfl
  | (key, item) :: entries, harmless, typed, written => by
    rw [entriesContain, or_eq_false_iff]
    refine ⟨holds_no_capability whole item (harmless (key, item) mem_cons_self) typed.1
      written.1, entries_hold_no_capability whole entries ?_ typed.2 written.2⟩
    intro other member
    exact harmless other (mem_cons_of_mem (key, item) member)
end

end Held

/-- Where the type, the declarations in its scope and the recorded types of the value are
written out, a value at a type that is not sensitive holds no capability. The bare name of a
container is not sensitive, and in every program some value at it holds one. -/
theorem insensitive_holds_no_capability (decls : Declarations) :
    (∀ (scope : String → Prop) (node : TypeNode) (value : Held), ScopeExact decls scope →
      Exact decls scope [] node → Held.ExactValue decls scope value →
      Sensitivity decls node false → Held.WellTyped decls value →
      Held.matchesNode node value = true → Held.containsCapability value = false) ∧
    ∀ name arity, genericArity name = some arity → decls.components? name = none →
      Sensitivity decls (.named name) false ∧ ∃ value, Held.WellTyped decls value ∧
        Held.matchesNode (.named name) value = true ∧ Held.containsCapability value = true := by
  constructor
  · intro scope node value whole exact written insensitive typed found
    exact Held.holds_no_capability whole value
      ⟨node, exact, not_carries_of_insensitive whole exact insensitive, found⟩ typed written
  · intro name arity container undeclared
    have quiet : name ∉ capabilityTypes := by
      rcases genericArity_cases name with ⟨rfl, -⟩ | ⟨rfl, -⟩ | ⟨rfl, -⟩ | ⟨rfl, -⟩ | ⟨-, known⟩
      · decide
      · decide
      · decide
      · decide
      · rw [known] at container
        cases container
    refine ⟨⟨1, ?_⟩, ?_⟩
    · rw [isSensitive, if_neg (by simpa using quiet), undeclared]
      rfl
    · rcases genericArity_cases name with ⟨rfl, -⟩ | ⟨rfl, -⟩ | ⟨rfl, -⟩ | ⟨rfl, -⟩ | ⟨-, known⟩
      · exact ⟨.enum "Option" "Some" (some (.capability .netCaps)) [], ⟨by simp, trivial⟩, rfl, rfl⟩
      · exact ⟨.enum "Result" "Ok" (some (.capability .netCaps)) [], ⟨by simp, trivial⟩, rfl, rfl⟩
      · exact ⟨.list [.capability .netCaps], ⟨trivial, trivial⟩, rfl, rfl⟩
      · exact ⟨.map [("net", .capability .netCaps)], ⟨trivial, trivial⟩, rfl, rfl⟩
      · rw [known] at container
        cases container

/-- `struct Box<T>` with one field of the type of its parameter. -/
def boxDeclarations : Declarations := ⟨[("Box", ⟨["T"], [("item", .named "T")]⟩)], []⟩

/-- The type `List<Int>` as a value records it. -/
def listOfInt : TypeText where
  text := "List<Int>"
  node := .generic "List" [.named "Int"]
  reads := by
    simp [parseTypeText, parseWithin, parseAllWithin, strip, splitTopLevel, splitLoop,
      unionSeparator, pushPart, isSpace]

def boxedList : Held := .struct "Box" [("item", .list [.int 1])] [listOfInt]

/-- A Box of a List of Ints holds no capability. -/
theorem boxedList_holds_no_capability : Held.containsCapability boxedList = false := by
  let scope : String → Prop := fun name => name = "Box" ∨ name = "List" ∨ name = "Int"
  have ident : ∀ name ∈ ["Box", "List", "Int", "T"], Ident name := by
    intro name member
    simp only [mem_cons, not_mem_nil, or_false] at member
    rcases member with rfl | rfl | rfl | rfl <;>
      exact ⟨by decide, by decide, by simp [isDelimiter]⟩
  have ints : Exact boxDeclarations scope [] (.generic "List" [.named "Int"]) :=
    ⟨⟨ident "List" (by decide), .inr (.inl rfl), .inl ⟨rfl, rfl⟩⟩,
      ⟨⟨ident "Int" (by decide), .inr (.inr rfl), rfl, .inl rfl⟩, trivial⟩⟩
  have item : instantiated ["T"] [listOfInt] (.named "T") = .generic "List" [.named "Int"] := by
    decide +kernel
  refine (insensitive_holds_no_capability boxDeclarations).1 scope
    (.generic "Box" [.generic "List" [.named "Int"]]) boxedList ?_ ?_ ?_ ⟨9, by decide +kernel⟩
    ?_ (by decide +kernel)
  · rintro name (rfl | rfl | rfl) parameters components declared parts component member
    · cases Option.some.inj declared
      cases Option.some.inj parts
      rw [mem_singleton.mp member]
      exact ⟨mem_singleton.mpr rfl, ident "T" (by decide)⟩
    · cases declared
    · cases declared
  · exact ⟨⟨ident "Box" (by decide), .inl rfl, .inr ⟨⟨rfl, by decide⟩, ["T"], rfl, rfl, by decide⟩⟩,
      ints, trivial⟩
  · refine ⟨?_, ⟨trivial, trivial⟩, trivial⟩
    intro shape declared field member fieldType inShape
    cases Option.some.inj declared
    rw [mem_singleton.mp member] at inShape
    cases mem_singleton.mp inShape
    rw [item]
    exact ints
  · refine ⟨⟨_, rfl, rfl, ?_⟩, ⟨trivial, trivial⟩, trivial⟩
    intro field member
    rw [mem_singleton.mp member]
    exact ⟨_, mem_singleton.mpr rfl, by rw [item]; decide +kernel⟩

/-- A List of a capability is at `List`, which is not sensitive. -/
theorem bareList_hides_capability :
    ∃ (decls : Declarations) (node : TypeNode) (value : Held), node.closed = true ∧
      Sensitivity decls node false ∧ Held.WellTyped decls value ∧
      Held.matchesNode node value = true ∧ Held.containsCapability value = true :=
  ⟨⟨[], []⟩, .named "List", .list [.capability .netCaps], rfl, ⟨1, by decide⟩,
    ⟨trivial, trivial⟩, rfl, rfl⟩

end Koschei
