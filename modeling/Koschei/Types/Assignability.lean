import Koschei.Types.Matching

/-!
# Assignability against runtime values

`Covers expected actual` is assignability without its two lax rules: an unknown
actual type is not taken by every expected type, and a bare container name is
not taken by an instantiation of the container. It is what the type texts
promise: every value of the actual type is a value of the expected type. The
code's `is_assignable` accepts more, and exactly there a value can be used at a
type it does not match.
-/

namespace Koschei

namespace TypeNode

/-- The expected type takes every value of the actual type, going by the types alone. -/
inductive Covers : TypeNode → TypeNode → Prop where
  | unknown (actual : TypeNode) : Covers .unknown actual
  | refl (node : TypeNode) : Covers node node
  | fromUnion {expected : TypeNode} {options : List TypeNode} :
      (∀ option ∈ options, Covers expected option) → Covers expected (.union options)
  | toUnion {actual option : TypeNode} {options : List TypeNode} :
      option ∈ options → Covers option actual → Covers (.union options) actual
  | bare (name : String) (arguments : List TypeNode) :
      Covers (.named name) (.generic name arguments)
  | generic (name : String) {arguments others : List TypeNode} :
      arguments.length = others.length →
      (∀ pair ∈ arguments.zip others, Covers pair.1 pair.2) →
        Covers (.generic name arguments) (.generic name others)

/-! ## The code's relation, case by case -/

theorem isAssignable_unknown_left (actual : TypeNode) : isAssignable .unknown actual = true := by
  unfold isAssignable
  simp

theorem isAssignable_unknown_right (expected : TypeNode) :
    isAssignable expected .unknown = true := by
  unfold isAssignable
  simp

theorem assignableFromAll_iff (expected : TypeNode) (options : List TypeNode) :
    assignableFromAll expected options = true ↔
      ∀ option ∈ options, isAssignable expected option = true := by
  induction options with
  | nil => simp [assignableFromAll]
  | cons option options ih => simp [assignableFromAll, ih]

theorem assignableToAny_iff (options : List TypeNode) (actual : TypeNode) :
    assignableToAny options actual = true ↔
      ∃ option ∈ options, isAssignable option actual = true := by
  induction options with
  | nil => simp [assignableToAny]
  | cons option options ih => simp [assignableToAny, ih]

theorem assignablePairs_iff (arguments others : List TypeNode) :
    assignablePairs arguments others = true ↔
      ∀ pair ∈ arguments.zip others, isAssignable pair.1 pair.2 = true := by
  induction arguments generalizing others with
  | nil => simp [assignablePairs]
  | cons argument arguments ih =>
    cases others with
    | nil => simp [assignablePairs]
    | cons other others => simp [assignablePairs, ih]

theorem isAssignable_union_right (expected : TypeNode) (options : List TypeNode) :
    isAssignable expected (.union options) = true ↔
      ∀ option ∈ options, isAssignable expected option = true := by
  by_cases unknown : expected = .unknown
  · subst unknown
    simp [isAssignable_unknown_left]
  · rw [← assignableFromAll_iff]
    conv_lhs => unfold isAssignable
    simp [unknown]

/-- The types that are neither unknown nor a union. -/
def isLeaf : TypeNode → Bool
  | .unknown | .union _ => false
  | _ => true

variable {actual node : TypeNode}

theorem isAssignable_union_left (leaf : actual.isLeaf = true) (options : List TypeNode) :
    isAssignable (.union options) actual = true ↔
      ∃ option ∈ options, isAssignable option actual = true := by
  rw [← assignableToAny_iff]
  conv_lhs => unfold isAssignable
  cases actual with
  | unknown | union => simp [isLeaf] at leaf
  | _ => simp

theorem isAssignable_refl_leaf (leaf : node.isLeaf = true) : isAssignable node node = true := by
  unfold isAssignable
  cases node with
  | unknown | union => simp [isLeaf] at leaf
  | _ => simp

theorem isAssignable_generic (name other : String) (arguments others : List TypeNode) :
    isAssignable (.generic name arguments) (.generic other others) = true ↔
      name = other ∧ (arguments = others ∨ arguments.length = others.length ∧
        ∀ pair ∈ arguments.zip others, isAssignable pair.1 pair.2 = true) := by
  rw [← assignablePairs_iff]
  conv_lhs => unfold isAssignable
  by_cases same : name = other ∧ arguments = others
  · obtain ⟨rfl, rfl⟩ := same
    simp
  · simp only [reduceCtorEq, or_self, if_false, generic.injEq, same, and_eq_true, beq_iff_eq]
    tauto

theorem isAssignable_named_generic (name other : String) (others : List TypeNode) :
    isAssignable (.named name) (.generic other others) = true ↔ name = other := by
  unfold isAssignable
  simp

theorem isAssignable_generic_named (name other : String) (arguments : List TypeNode) :
    isAssignable (.generic name arguments) (.named other) = true ↔ name = other := by
  unfold isAssignable
  simp

/-! ## Assignability along a covering -/

mutual
/-- The options of a type, those of nested unions included. -/
def leaves : TypeNode → List TypeNode
  | .union options => leavesAll options
  | .unknown => [.unknown]
  | .named name => [.named name]
  | .variable name => [.variable name]
  | .generic name arguments => [.generic name arguments]

def leavesAll : List TypeNode → List TypeNode
  | [] => []
  | option :: options => leaves option ++ leavesAll options
end

mutual
theorem isLeaf_of_mem_leaves : ∀ (node : TypeNode) {leaf : TypeNode}, leaf ∈ leaves node →
    leaf = .unknown ∨ leaf.isLeaf = true
  | .union options, _, member => isLeaf_of_mem_leavesAll options member
  | .unknown, _, member => by simp_all [leaves]
  | .named _, _, member => by simp_all [leaves, isLeaf]
  | .variable _, _, member => by simp_all [leaves, isLeaf]
  | .generic _ _, _, member => by simp_all [leaves, isLeaf]

theorem isLeaf_of_mem_leavesAll : ∀ (options : List TypeNode) {leaf : TypeNode},
    leaf ∈ leavesAll options → leaf = .unknown ∨ leaf.isLeaf = true
  | [], _, member => by simp [leavesAll] at member
  | option :: options, _, member => by
    rw [leavesAll, mem_append] at member
    cases member with
    | inl first => exact isLeaf_of_mem_leaves option first
    | inr rest => exact isLeaf_of_mem_leavesAll options rest
end

mutual
theorem isAssignable_iff_leaves (expected : TypeNode) : ∀ actual : TypeNode,
    isAssignable expected actual = true ↔ ∀ leaf ∈ leaves actual, isAssignable expected leaf = true
  | .union options => by
    rw [isAssignable_union_right, leaves]
    exact isAssignable_all_iff_leaves expected options
  | .unknown => by simp [leaves]
  | .named _ => by simp [leaves]
  | .variable _ => by simp [leaves]
  | .generic _ _ => by simp [leaves]

theorem isAssignable_all_iff_leaves (expected : TypeNode) : ∀ options : List TypeNode,
    (∀ option ∈ options, isAssignable expected option = true) ↔
      ∀ leaf ∈ leavesAll options, isAssignable expected leaf = true
  | [] => by simp [leavesAll]
  | option :: options => by
    simp only [leavesAll, forall_mem_cons, forall_mem_append,
      isAssignable_iff_leaves expected option, isAssignable_all_iff_leaves expected options]
end

mutual
theorem isAssignable_of_mem_leaves : ∀ (node : TypeNode) {leaf : TypeNode},
    leaf ∈ leaves node → isAssignable node leaf = true
  | .union options, leaf, member => by
    obtain ⟨option, inOptions, takes⟩ := isAssignable_of_mem_leavesAll options member
    obtain rfl | isLeaf := isLeaf_of_mem_leaves _ member
    · exact isAssignable_unknown_right _
    · exact (isAssignable_union_left isLeaf options).mpr ⟨option, inOptions, takes⟩
  | .unknown, leaf, _ => isAssignable_unknown_left leaf
  | .named _, _, member => by
    rw [mem_singleton.mp member]
    exact isAssignable_refl_leaf rfl
  | .variable _, _, member => by
    rw [mem_singleton.mp member]
    exact isAssignable_refl_leaf rfl
  | .generic _ _, _, member => by
    rw [mem_singleton.mp member]
    exact isAssignable_refl_leaf rfl

theorem isAssignable_of_mem_leavesAll : ∀ (options : List TypeNode) {leaf : TypeNode},
    leaf ∈ leavesAll options → ∃ option ∈ options, isAssignable option leaf = true
  | [], _, member => by simp [leavesAll] at member
  | option :: options, _, member => by
    rw [leavesAll, mem_append] at member
    cases member with
    | inl first => exact ⟨option, by simp, isAssignable_of_mem_leaves option first⟩
    | inr rest =>
      obtain ⟨found, inOptions, takes⟩ := isAssignable_of_mem_leavesAll options rest
      exact ⟨found, mem_cons_of_mem _ inOptions, takes⟩
end

theorem isAssignable_refl (node : TypeNode) : isAssignable node node = true := by
  rw [isAssignable_iff_leaves]
  intro leaf member
  exact isAssignable_of_mem_leaves node member

theorem isAssignable_generic_iff (name other : String) (arguments others : List TypeNode) :
    isAssignable (.generic name arguments) (.generic other others) = true ↔
      name = other ∧ arguments.length = others.length ∧
        ∀ pair ∈ arguments.zip others, isAssignable pair.1 pair.2 = true := by
  rw [isAssignable_generic]
  constructor
  · rintro ⟨rfl, rfl | apart⟩
    · refine ⟨rfl, rfl, ?_⟩
      simp [List.zip, List.zipWith_self, isAssignable_refl]
    · exact ⟨rfl, apart⟩
  · rintro ⟨rfl, apart⟩
    exact ⟨rfl, Or.inr apart⟩

/-- Composing two relations along lists that are related pair by pair. -/
theorem zip_compose {α β γ : Type*} {P : α → β → Prop} {Q : β → γ → Prop} {R : α → γ → Prop}
    (compose : ∀ x y z, P x y → Q y z → R x z) {xs : List α} {ys : List β} {zs : List γ}
    (sameLength : xs.length = ys.length) (first : ∀ pair ∈ xs.zip ys, P pair.1 pair.2)
    (second : ∀ pair ∈ ys.zip zs, Q pair.1 pair.2) : ∀ pair ∈ xs.zip zs, R pair.1 pair.2 := by
  induction xs generalizing ys zs with
  | nil => simp
  | cons x xs ih =>
    cases ys with
    | nil => simp at sameLength
    | cons y ys =>
      cases zs with
      | nil => simp
      | cons z zs =>
        simp only [zip_cons_cons, forall_mem_cons] at first second ⊢
        refine ⟨compose x y z first.1 second.1, ?_⟩
        exact ih (Nat.succ.inj sameLength) first.2 second.2

/-- What is assignable to one type is assignable to another, if the options are. -/
theorem isAssignable_of_leaves {expected actual node : TypeNode}
    (each : ∀ leaf : TypeNode, leaf.isLeaf = true → isAssignable actual leaf = true →
      isAssignable expected leaf = true)
    (assignable : isAssignable actual node = true) : isAssignable expected node = true := by
  rw [isAssignable_iff_leaves] at assignable ⊢
  intro leaf member
  obtain rfl | isLeaf := isLeaf_of_mem_leaves node member
  · exact isAssignable_unknown_right _
  · exact each leaf isLeaf (assignable leaf member)

theorem Covers.isAssignable_trans {expected actual : TypeNode} (covers : Covers expected actual) :
    ∀ node, isAssignable actual node = true → isAssignable expected node = true := by
  induction covers with
  | unknown actual =>
    intro node _
    exact isAssignable_unknown_left node
  | refl node =>
    intro _ assignable
    exact assignable
  | @fromUnion expected options _ ih =>
    refine fun node => isAssignable_of_leaves fun leaf isLeaf taken => ?_
    obtain ⟨option, inOptions, takes⟩ := (isAssignable_union_left isLeaf options).mp taken
    exact ih option inOptions leaf takes
  | @toUnion actual option options inOptions _ ih =>
    refine fun node => isAssignable_of_leaves fun leaf isLeaf taken => ?_
    exact (isAssignable_union_left isLeaf options).mpr ⟨option, inOptions, ih leaf taken⟩
  | bare name arguments =>
    refine fun node => isAssignable_of_leaves fun leaf isLeaf taken => ?_
    cases leaf with
    | unknown | union => simp [TypeNode.isLeaf] at isLeaf
    | named other =>
      rw [isAssignable_generic_named] at taken
      rw [taken]
      exact isAssignable_refl_leaf rfl
    | generic other others =>
      rw [isAssignable_generic] at taken
      exact (isAssignable_named_generic _ _ _).mpr taken.1
    | _ =>
      unfold isAssignable at taken
      simp at taken
  | @generic name arguments others sameLength _ ih =>
    refine fun node => isAssignable_of_leaves fun leaf isLeaf taken => ?_
    cases leaf with
    | unknown | union => simp [TypeNode.isLeaf] at isLeaf
    | named other =>
      rw [isAssignable_generic_named] at taken ⊢
      exact taken
    | generic other nodes =>
      rw [isAssignable_generic_iff] at taken ⊢
      obtain ⟨rfl, lengths, pairs⟩ := taken
      refine ⟨rfl, sameLength.trans lengths, ?_⟩
      exact zip_compose (P := fun x y => ∀ node, isAssignable y node = true →
        isAssignable x node = true) (fun x y z takes assigned => takes z assigned)
        sameLength ih pairs
    | _ =>
      unfold isAssignable at taken
      simp at taken

/-! ## Containers with the right number of arguments -/

mutual
/-- Every instantiation of a container has as many arguments as the container takes. -/
def saturated : TypeNode → Bool
  | .generic name arguments =>
    (match genericArity name with
      | some arity => arguments.length == arity
      | none => true) && saturatedAll arguments
  | .union options => saturatedAll options
  | .unknown | .named _ | .variable _ => true

def saturatedAll : List TypeNode → Bool
  | [] => true
  | node :: nodes => saturated node && saturatedAll nodes
end

theorem saturated_of_mem {nodes : List TypeNode} (all : saturatedAll nodes = true)
    (member : node ∈ nodes) : node.saturated = true := by
  induction nodes with
  | nil => simp at member
  | cons first nodes ih =>
    rw [saturatedAll, and_eq_true] at all
    cases mem_cons.mp member with
    | inl here => exact here ▸ all.1
    | inr later => exact ih all.2 later

/-- The names `genericArity` knows. -/
theorem genericArity_cases (name : String) : (name = "Option" ∧ genericArity name = some 1) ∨
      (name = "Result" ∧ genericArity name = some 2) ∨
      (name = "List" ∧ genericArity name = some 1) ∨
      (name = "Map" ∧ genericArity name = some 2) ∨
      ((name ≠ "Option" ∧ name ≠ "Result" ∧ name ≠ "List" ∧ name ≠ "Map") ∧
        genericArity name = none) := by
  unfold genericArity
  split_ifs <;> simp_all

variable {decls : Declarations}

theorem length_of_checkGeneric {name : String}
    {arguments : List TypeNode} (checked : checkGeneric decls name arguments = .ok ())
    {arity : Nat} (container : genericArity name = some arity) : arguments.length = arity := by
  simp only [checkGeneric, expectedArity, container] at checked
  by_contra different
  rw [if_neg] at checked
  · rw [if_pos different] at checked
    cases checked
  · rintro ⟨_, rfl⟩
    obtain ⟨-, known⟩ | ⟨-, known⟩ | ⟨-, known⟩ | ⟨-, known⟩ | ⟨-, known⟩ :=
      genericArity_cases name <;> simp [known] at container

mutual
theorem saturated_of_validateType (decls : Declarations) (fuel : Nat) : ∀ node : TypeNode,
    validateType decls fuel node = some (.ok ()) → node.saturated = true
  | .unknown, _ => rfl
  | .variable _, _ => rfl
  | .named _, _ => rfl
  | .union options, valid => saturatedAll_of_validateAll decls fuel options valid
  | .generic name arguments, valid => by
    rw [validateType] at valid
    cases checked : checkGeneric decls name arguments with
    | error fault => simp [checked] at valid
    | ok =>
      simp only [checked] at valid
      cases validated : validateAll decls fuel arguments with
      | none => simp [validated] at valid
      | some result =>
        cases result with
        | error fault => simp [validated] at valid
        | ok =>
          rw [saturated, and_eq_true]
          refine ⟨?_, saturatedAll_of_validateAll decls fuel arguments validated⟩
          cases container : genericArity name with
          | none => rfl
          | some arity => simpa using length_of_checkGeneric checked container

theorem saturatedAll_of_validateAll (decls : Declarations) (fuel : Nat) :
    ∀ nodes : List TypeNode, validateAll decls fuel nodes = some (.ok ()) →
      saturatedAll nodes = true
  | [], _ => rfl
  | node :: nodes, valid => by
    rw [validateAll] at valid
    cases first : validateType decls fuel node with
    | none => simp [first] at valid
    | some result =>
      cases result with
      | error fault => simp [first] at valid
      | ok =>
        simp only [first] at valid
        rw [saturatedAll, and_eq_true]
        exact ⟨saturated_of_validateType decls fuel node first,
          saturatedAll_of_validateAll decls fuel nodes valid⟩
end

theorem saturated_of_accepted (accepted : Accepted decls node) : node.saturated = true := by
  obtain ⟨fuel, valid⟩ := accepted
  exact saturated_of_validateType decls fuel node valid

end TypeNode

/-! ## Soundness along a covering -/

namespace Held

open TypeNode

theorem matchesAny_iff (options : List TypeNode) (value : Held) :
    matchesAny options value = true ↔ ∃ option ∈ options, matchesNode option value = true := by
  induction options with
  | nil => simp [matchesAny]
  | cons option options ih => simp [matchesAny, ih]

variable {name : String} {arguments : List TypeNode} {value : Held}

theorem matchesName_of_declared
    (declared : name ≠ "Option" ∧ name ≠ "Result" ∧ name ≠ "List" ∧ name ≠ "Map")
    (matched : matchesDeclared name arguments value = true) : matchesName name value = true := by
  obtain ⟨notOption, notResult, notList, notMap⟩ := declared
  simp only [matchesName, notOption, notResult, notList, notMap, if_false, or_self]
  unfold matchesDeclared at matched
  cases node : value.runtimeTypeNode with
  | named found =>
    simp only [node, and_eq_true, beq_iff_eq] at matched
    simp [matched.1]
  | generic found others =>
    simp only [node, and_eq_true, beq_iff_eq] at matched
    simp [matched.1]
  | _ => simp [node] at matched

variable {first second : Held → Bool}

theorem matchesOption_mono (implies : ∀ item, first item = true → second item = true)
    (matched : matchesOption first value = true) : matchesOption second value = true := by
  cases value with
  | enum enumName variant payload arguments =>
    cases payload with
    | none => exact matched
    | some item =>
      simp only [matchesOption, and_eq_true, or_eq_true] at matched ⊢
      refine ⟨matched.1, matched.2.imp_right fun some => ⟨some.1, implies item some.2⟩⟩
  | _ => simp [matchesOption] at matched

theorem matchesResult_mono {ok ok' err err' : Held → Bool}
    (impliesOk : ∀ item, ok item = true → ok' item = true)
    (impliesErr : ∀ item, err item = true → err' item = true)
    (matched : matchesResult ok err value = true) : matchesResult ok' err' value = true := by
  cases value with
  | enum enumName variant payload arguments =>
    cases payload with
    | none => simp [matchesResult] at matched
    | some item =>
      simp only [matchesResult, and_eq_true] at matched ⊢
      refine ⟨matched.1, ?_⟩
      have inner := matched.2
      split_ifs at inner ⊢ with isOk isErr
      · exact impliesOk item inner
      · exact impliesErr item inner
  | _ => simp [matchesResult] at matched

theorem matchesList_mono (implies : ∀ item, first item = true → second item = true)
    (matched : matchesList first value = true) : matchesList second value = true := by
  cases value with
  | list items =>
    simp only [matchesList, all_eq_true] at matched ⊢
    intro item member
    exact implies item (matched item member)
  | _ => simp [matchesList] at matched

theorem matchesMap_mono {key key' item item' : Held → Bool}
    (impliesKey : ∀ v, key v = true → key' v = true)
    (impliesItem : ∀ v, item v = true → item' v = true)
    (matched : matchesMap key item value = true) : matchesMap key' item' value = true := by
  cases value with
  | map entries =>
    simp only [matchesMap, all_eq_true, and_eq_true] at matched ⊢
    intro entry member
    have found := matched entry member
    exact ⟨impliesKey _ found.1, impliesItem _ found.2⟩
  | _ => simp [matchesMap] at matched

/-! ### Matching by the shape of a generic type -/

theorem matchesNode_option (item : TypeNode) (value : Held) :
    matchesNode (.generic "Option" [item]) value = matchesOption (matchesNode item) value := by
  simp [matchesNode, matchers, matchesGeneric]

theorem matchesNode_list (item : TypeNode) (value : Held) :
    matchesNode (.generic "List" [item]) value = matchesList (matchesNode item) value := by
  simp [matchesNode, matchers, matchesGeneric]

theorem matchesNode_result (ok err : TypeNode) (value : Held) :
    matchesNode (.generic "Result" [ok, err]) value =
      matchesResult (matchesNode ok) (matchesNode err) value := by
  simp [matchesNode, matchers, matchesGeneric]

theorem matchesNode_map (key item : TypeNode) (value : Held) :
    matchesNode (.generic "Map" [key, item]) value =
      matchesMap (matchesNode key) (matchesNode item) value := by
  simp [matchesNode, matchers, matchesGeneric]

theorem matchesNode_declared
    (declared : name ≠ "Option" ∧ name ≠ "Result" ∧ name ≠ "List" ∧ name ≠ "Map")
    (arguments : List TypeNode) (value : Held) :
    matchesNode (.generic name arguments) value = matchesDeclared name arguments value := by
  obtain ⟨notOption, notResult, notList, notMap⟩ := declared
  simp only [matchesNode, matchesGeneric, notOption, notResult, notList, notMap, if_false]
  split <;> rfl

/-- The shapes of a generic type with the right number of arguments. -/
theorem saturated_cases (saturated : (TypeNode.generic name arguments).saturated = true) :
    (name = "Option" ∧ ∃ item, arguments = [item]) ∨
      (name = "Result" ∧ ∃ ok err, arguments = [ok, err]) ∨
      (name = "List" ∧ ∃ item, arguments = [item]) ∨
      (name = "Map" ∧ ∃ key item, arguments = [key, item]) ∨
      (name ≠ "Option" ∧ name ≠ "Result" ∧ name ≠ "List" ∧ name ≠ "Map") := by
  rw [TypeNode.saturated, and_eq_true] at saturated
  have arity := saturated.1
  obtain ⟨rfl, known⟩ | ⟨rfl, known⟩ | ⟨rfl, known⟩ | ⟨rfl, known⟩ | ⟨declared, -⟩ :=
    genericArity_cases name
  · rw [known] at arity
    exact .inl ⟨rfl, length_eq_one_iff.mp (by simpa using arity)⟩
  · rw [known] at arity
    exact .inr (.inl ⟨rfl, List.length_eq_two.mp (by simpa using arity)⟩)
  · rw [known] at arity
    exact .inr (.inr (.inl ⟨rfl, length_eq_one_iff.mp (by simpa using arity)⟩))
  · rw [known] at arity
    exact .inr (.inr (.inr (.inl ⟨rfl, List.length_eq_two.mp (by simpa using arity)⟩)))
  · exact .inr (.inr (.inr (.inr declared)))

theorem matchesName_of_generic (saturated : (TypeNode.generic name arguments).saturated = true)
    (matched : matchesNode (.generic name arguments) value = true) :
    matchesName name value = true := by
  obtain ⟨rfl, item, rfl⟩ | ⟨rfl, ok, err, rfl⟩ | ⟨rfl, item, rfl⟩ | ⟨rfl, key, item, rfl⟩ |
    declared := saturated_cases saturated
  · rw [matchesNode_option] at matched
    cases value with
    | enum enumName variant payload typeArguments =>
      simp only [matchesOption, and_eq_true] at matched
      simpa [matchesName] using matched.1
    | _ => simp [matchesOption] at matched
  · rw [matchesNode_result] at matched
    cases value with
    | enum enumName variant payload typeArguments =>
      simp only [matchesResult, and_eq_true] at matched
      simpa [matchesName] using matched.1
    | _ => simp [matchesResult] at matched
  · rw [matchesNode_list] at matched
    cases value with
    | list items => simp [matchesName]
    | _ => simp [matchesList] at matched
  · rw [matchesNode_map] at matched
    cases value with
    | map entries => simp [matchesName]
    | _ => simp [matchesMap] at matched
  · rw [matchesNode_declared declared] at matched
    exact matchesName_of_declared declared matched

/-- A value of a type of the program is a value of the type with arguments that cover the
recorded ones. -/
theorem matchesDeclared_of_covers {arguments others : List TypeNode}
    (covers : Covers (.generic name arguments) (.generic name others))
    (matched : matchesDeclared name others value = true) :
    matchesDeclared name arguments value = true := by
  unfold matchesDeclared at matched ⊢
  cases node : value.runtimeTypeNode with
  | named found =>
    simp only [node, and_eq_true] at matched ⊢
    exact ⟨matched.1, covers.isAssignable_trans _ matched.2⟩
  | generic found nodes =>
    simp only [node, and_eq_true] at matched ⊢
    exact ⟨matched.1, covers.isAssignable_trans _ matched.2⟩
  | _ => simp [node] at matched

theorem matchesNode_of_covers {expected actual : TypeNode} (covers : Covers expected actual) :
    ∀ value : Held, actual.saturated = true → matchesNode actual value = true →
      matchesNode expected value = true := by
  induction covers with
  | unknown actual =>
    intro value _ _
    rfl
  | refl node =>
    intro value _ matched
    exact matched
  | @fromUnion expected options _ ih =>
    intro value saturated matched
    rw [matchesNode, matchesAny_iff] at matched
    obtain ⟨option, member, found⟩ := matched
    exact ih option member value (saturated_of_mem saturated member) found
  | @toUnion actual option options member _ ih =>
    intro value saturated matched
    rw [matchesNode, matchesAny_iff]
    exact ⟨option, member, ih value saturated matched⟩
  | bare name arguments =>
    intro value saturated matched
    exact matchesName_of_generic saturated matched
  | @generic name arguments others sameLength pairs ih =>
    intro value saturated matched
    have parts : TypeNode.saturatedAll others = true := by
      rw [TypeNode.saturated, and_eq_true] at saturated
      exact saturated.2
    obtain ⟨rfl, item, rfl⟩ | ⟨rfl, ok, err, rfl⟩ | ⟨rfl, item, rfl⟩ | ⟨rfl, key, item, rfl⟩ |
      declared := saturated_cases saturated
    · obtain ⟨item', rfl⟩ := length_eq_one_iff.mp sameLength
      rw [matchesNode_option] at matched ⊢
      apply matchesOption_mono _ matched
      intro payload
      exact ih (item', item) (by simp) payload (saturated_of_mem parts (by simp))
    · obtain ⟨ok', err', rfl⟩ := List.length_eq_two.mp sameLength
      rw [matchesNode_result] at matched ⊢
      apply matchesResult_mono _ _ matched
      · intro payload
        exact ih (ok', ok) (by simp) payload (saturated_of_mem parts (by simp))
      · intro payload
        exact ih (err', err) (by simp) payload (saturated_of_mem parts (by simp))
    · obtain ⟨item', rfl⟩ := length_eq_one_iff.mp sameLength
      rw [matchesNode_list] at matched ⊢
      apply matchesList_mono _ matched
      intro element
      exact ih (item', item) (by simp) element (saturated_of_mem parts (by simp))
    · obtain ⟨key', item', rfl⟩ := List.length_eq_two.mp sameLength
      rw [matchesNode_map] at matched ⊢
      apply matchesMap_mono _ _ matched
      · intro element
        exact ih (key', key) (by simp) element (saturated_of_mem parts (by simp))
      · intro element
        exact ih (item', item) (by simp) element (saturated_of_mem parts (by simp))
    · rw [matchesNode_declared declared] at matched ⊢
      exact matchesDeclared_of_covers (.generic name sameLength pairs) matched

end Held

/-! ## Chains of declared types -/

namespace TypeNode

mutual
/-- The type contains no unknown type and no type variable. -/
def closed : TypeNode → Bool
  | .unknown | .variable _ => false
  | .named _ => true
  | .generic _ arguments => closedAll arguments
  | .union options => closedAll options

def closedAll : List TypeNode → Bool
  | [] => true
  | node :: nodes => closed node && closedAll nodes
end

mutual
def nameBound : TypeNode → Nat
  | .unknown | .variable _ => 0
  | .named name => name.length
  | .generic name arguments => max name.length (nameBoundAll arguments)
  | .union options => nameBoundAll options

def nameBoundAll : List TypeNode → Nat
  | [] => 0
  | node :: nodes => max (nameBound node) (nameBoundAll nodes)
end

end TypeNode

/-- A value may pass from the first type to the second: both are types the validator accepts
without unknown parts, and the second takes the first. -/
structure Passes (decls : Declarations) (actual expected : TypeNode) : Prop where
  actualAccepted : Accepted decls actual
  expectedAccepted : Accepted decls expected
  actualClosed : actual.closed = true
  expectedClosed : expected.closed = true
  assignable : TypeNode.isAssignable expected actual = true

namespace Held

open TypeNode

theorem matchesNode_of_chain {decls : Declarations} {first last : TypeNode}
    (chain : Relation.ReflTransGen
      (fun actual expected => Passes decls actual expected ∧ Covers expected actual) first last)
    {value : Held} (matched : matchesNode first value = true) :
    matchesNode last value = true := by
  induction chain with
  | refl => exact matched
  | tail _ step ih =>
    exact matchesNode_of_covers step.2 value (saturated_of_accepted step.1.actualAccepted) ih

mutual
/-- A host object whose class name is longer than every name in the type. -/
theorem matchesNode_other_eq_false (className : String) : ∀ {node : TypeNode},
    node.closed = true → node.nameBound < className.length →
      matchesNode node (.other className) = false
  | .unknown, closed, _ | .variable _, closed, _ => by simp [TypeNode.closed] at closed
  | .named name, _, bound => by
    have different : className ≠ name := by
      rintro rfl
      simp [nameBound] at bound
    simp [matchesNode, matchesName, runtimeTypeNode, different]
  | .union options, closed, bound => matchesAny_other_eq_false className closed bound
  | .generic name arguments, closed, bound => by
    have different : className ≠ name := by
      rintro rfl
      simp [nameBound] at bound
    have undeclared : matchesDeclared name arguments (.other className) = false := by
      simp [matchesDeclared, runtimeTypeNode, different]
    simp only [matchesNode, matchesGeneric, undeclared]
    split <;> simp [matchesOption, matchesList, matchesResult, matchesMap]

theorem matchesAny_other_eq_false (className : String) : ∀ {options : List TypeNode},
    closedAll options = true → nameBoundAll options < className.length →
      matchesAny options (.other className) = false
  | [], _, _ => rfl
  | option :: options, closed, bound => by
    rw [closedAll, and_eq_true] at closed
    rw [nameBoundAll, max_lt_iff] at bound
    simp only [matchesAny, matchesNode_other_eq_false className closed.1 bound.1,
      matchesAny_other_eq_false className closed.2 bound.2, Bool.or_self]
end

theorem exists_unmatched (nodes : List TypeNode) (closed : closedAll nodes = true) :
    ∃ value : Held, ∀ node ∈ nodes, matchesNode node value = false := by
  refine ⟨.other (ofList (replicate (nameBoundAll nodes + 1) 'x')), ?_⟩
  have unmatched := matchesAny_other_eq_false
    (ofList (replicate (nameBoundAll nodes + 1) 'x')) closed (by simp)
  intro node member
  by_contra matched
  rw [not_eq_false] at matched
  rw [(matchesAny_iff nodes _).mpr ⟨node, member, matched⟩] at unmatched
  cases unmatched

/-- A bare container name and an instantiation of it: some value of the bare name is no value
of the instantiation. -/
theorem exists_bare_unmatched {name : String} {arguments : List TypeNode}
    (container : genericArity name = some arguments.length) (closed : closedAll arguments = true) :
    ∃ value : Held, matchesNode (.named name) value = true ∧
      matchesNode (.generic name arguments) value = false := by
  obtain ⟨hidden, unmatched⟩ := exists_unmatched arguments closed
  obtain ⟨rfl, known⟩ | ⟨rfl, known⟩ | ⟨rfl, known⟩ | ⟨rfl, known⟩ | ⟨-, known⟩ :=
    genericArity_cases name
  · obtain ⟨item, rfl⟩ := length_eq_one_iff.mp (some.inj (container.symm.trans known))
    refine ⟨.enum "Option" "Some" (some hidden) [], by simp [matchesNode, matchesName], ?_⟩
    rw [matchesNode_option]
    simp [matchesOption, unmatched item (by simp)]
  · obtain ⟨ok, err, rfl⟩ := List.length_eq_two.mp (some.inj (container.symm.trans known))
    refine ⟨.enum "Result" "Ok" (some hidden) [], by simp [matchesNode, matchesName], ?_⟩
    rw [matchesNode_result]
    simp [matchesResult, unmatched ok (by simp)]
  · obtain ⟨item, rfl⟩ := length_eq_one_iff.mp (some.inj (container.symm.trans known))
    refine ⟨.list [hidden], by simp [matchesNode, matchesName], ?_⟩
    rw [matchesNode_list]
    simp [matchesList, unmatched item (by simp)]
  · obtain ⟨key, item, rfl⟩ := List.length_eq_two.mp (some.inj (container.symm.trans known))
    refine ⟨.map [("", hidden)], by simp [matchesNode, matchesName], ?_⟩
    rw [matchesNode_map]
    simp [matchesMap, unmatched item (by simp)]
  · rw [known] at container
    cases container

end Held

/-- Along types each of which covers the one before, a value that matches the first matches
the last. A bare container name passes to every instantiation of the container, and some value
of the bare name does not match the instantiation. -/
theorem matchesNode_along_covering (decls : Declarations) :
    (∀ first last, Relation.ReflTransGen (fun actual expected =>
        Passes decls actual expected ∧ TypeNode.Covers expected actual) first last →
      ∀ value, Held.matchesNode first value = true → Held.matchesNode last value = true) ∧
    (∀ name arguments, genericArity name = some arguments.length →
      TypeNode.closedAll arguments = true →
      TypeNode.isAssignable (.generic name arguments) (.named name) = true ∧
        ∃ value, Held.matchesNode (.named name) value = true ∧
          Held.matchesNode (.generic name arguments) value = false) := by
  constructor
  · intro first last chain value matched
    exact Held.matchesNode_of_chain chain matched
  · intro name arguments container closed
    exact ⟨(TypeNode.isAssignable_generic_named _ _ _).mpr rfl,
      Held.exists_bare_unmatched container closed⟩

/-- A List of texts passes from `List` to `List<Int>`. -/
theorem bareList_passes_unmatched :
    ∃ (decls : Declarations) (actual expected : TypeNode) (value : Held),
      Passes decls actual expected ∧ Held.matchesNode actual value = true ∧
        Held.matchesNode expected value = false := by
  refine ⟨⟨[], []⟩, .named "List", .generic "List" [.named "Int"], .list [.str "a"], ?_, ?_, ?_⟩
  · refine ⟨⟨0, by decide⟩, ⟨9, by decide⟩, rfl, rfl, ?_⟩
    exact (TypeNode.isAssignable_generic_named _ _ _).mpr rfl
  · decide
  · decide

end Koschei
