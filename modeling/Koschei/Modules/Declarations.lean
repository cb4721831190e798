import Koschei.Lib.Checks
import Koschei.Lib.Dictionary
import Koschei.Lib.PostOrder
import Koschei.Names.Resolution

/-!
# Type declarations in a graph of modules

A module has structs and enums of its own and sees those of the modules it
imports. `TypeContractValidator` keeps one table for each module: its own
declarations, over which those of its imports are written. `SemanticChecker`
refuses a module in which one of these names is there twice. At run time there is
one table for the whole graph, filled module by module in dependency order; the
interpreter and the MIR executor construct it the same way, and a declaration of
a later module takes the place of an earlier one with its name.

So the tables agree on a name of a module exactly when no later module of the
graph declares the name again, and on a variant when besides its enum no enum
that comes later in the table has the variant.
-/

namespace Koschei.Modules

open Lib

/-! ## Graphs -/

/-- The declarations of a module, by name: its functions, structs and enums with their variants,
and the modules it imports. -/
structure ModuleSource where
  key : String
  imports : List (String × String)
  functions : List String
  structs : List String
  enums : List (String × List String)

/-- `ModuleGraph`: every import leads to a module of the graph. -/
structure ModuleGraph where
  root : String
  modules : List ModuleSource
  root_mem : root ∈ modules.map ModuleSource.key
  imports_mem : ∀ module ∈ modules, ∀ entry ∈ module.imports,
    entry.2 ∈ modules.map ModuleSource.key

namespace ModuleGraph

variable (graph : ModuleGraph)

/-- `module_of`. -/
def moduleOf (key : String) : Option ModuleSource :=
  graph.modules.find? fun module => module.key == key

/-- The modules a module imports. -/
def targets (key : String) : List String :=
  ((graph.moduleOf key).map fun module => module.imports.map snd).getD []

/-- `in_dependency_order`: imports before the modules that import them. -/
def inDependencyOrder : List String :=
  postOrder graph.targets ((graph.modules.map ModuleSource.key).length + 1) graph.root

/-- The modules that come after one in dependency order. -/
def later (key : String) : List String :=
  (graph.inDependencyOrder.dropWhile fun other => other ≠ key).tail

def structsOf (key : String) : List String := ((graph.moduleOf key).map ModuleSource.structs).getD []

def enumsOf (key : String) : List (String × List String) :=
  ((graph.moduleOf key).map ModuleSource.enums).getD []

def variantsOf (key enum : String) : List String := ((graph.enumsOf key).lookup enum).getD []

end ModuleGraph

/-! ## The tables -/

section Tables

variable (graph : ModuleGraph)

/-- The module a name belongs to in a module: itself, or an import. `names` lists what a module
declares. -/
def belongsTo (names : String → List String) (module : ModuleSource) (name : String) :
    Option String :=
  if name ∈ names module.key then some module.key
  else (module.imports.map snd).find? fun key => name ∈ names key

/-- `TypeContractValidator.__init__`: the imports are written over the declarations of the
module. -/
def contracts (names : String → List String) (module : ModuleSource) (name : String) :
    Option String :=
  let entries := ((names module.key).map fun declared => (declared, module.key)) ++
    (module.imports.map snd).flatMap fun key =>
      (names key).map fun declared => (declared, key)
  lastItem name entries

/-- `structs` and `enums` of a `MirGraph`: the declarations of all modules in dependency order. -/
def graphEntries (names : String → List String) : List (String × String) :=
  graph.inDependencyOrder.flatMap fun key => (names key).map fun declared => (declared, key)

/-- The entries of a table of `Interpreter.__init__`: those of the graph, and over them those of
the root. -/
def runtimeEntries (names : String → List String) : List (String × String) :=
  graphEntries graph names ++ (names graph.root).map fun declared => (declared, graph.root)

/-- What the interpreter, and the MIR executor through its facade, find under a name. -/
def runtime (names : String → List String) (name : String) : Option String :=
  lastItem name (runtimeEntries graph names)

def enumNames (key : String) : List String := (graph.enumsOf key).map fst

/-- An enum of the graph: its module and its name. -/
abbrev EnumRef := String × String

/-- `all_enums`, in the order of the table. -/
def allEnums : List (String × String) := ofEntries (runtimeEntries graph (enumNames graph))

/-- `constructors`: a variant is the one of the last enum of the table that has it. -/
def runtimeVariant (variant : String) : Option EnumRef :=
  lastItem variant ((allEnums graph).flatMap fun entry =>
    (graph.variantsOf entry.2 entry.1).map fun declared => (declared, (entry.2, entry.1)))

def variantEntries (key : String) : List (String × EnumRef) :=
  (graph.enumsOf key).flatMap fun declaration =>
    declaration.2.map fun declared => (declared, (key, declaration.1))

/-- `variants` of the type checker: those of the module, else the first import that has it. -/
def checkerVariant (module : ModuleSource) (variant : String) : Option EnumRef :=
  match lastItem variant (variantEntries graph module.key) with
  | some enum => some enum
  | none => ((module.imports.map snd).flatMap (variantEntries graph)).lookup variant

def variantBelongsTo (module : ModuleSource) (variant : String) : Option EnumRef :=
  match (variantEntries graph module.key).lookup variant with
  | some enum => some enum
  | none => ((module.imports.map snd).flatMap (variantEntries graph)).lookup variant

end Tables

/-! ## What the checker refuses -/

/-- The names that are there twice. -/
inductive Conflict where
  | declaredTwice (kind name : String)
  | bothKinds (name : String)
  | structName (name moduleName : String)
  | enumName (name moduleName : String)
  | variantName (name : String)
  | ownEnum (name : String)
  | emptyEnum (name : String)
  | ownVariant (name : String)
  deriving DecidableEq

def firstTwice : List String → List String → Option String
  | [], _ => none
  | name :: rest, seen => if name ∈ seen then some name else firstTwice rest (name :: seen)

/-- One kind of declarations of `_validate_top_level`. -/
def checkOnce (kind : String) (names : List String) : Except Conflict Unit :=
  match firstTwice names [] with
  | some name => .error (.declaredTwice kind name)
  | none => .ok ()

/-- `_validate_top_level`: a module declares each name once. -/
def validateTopLevel (module : ModuleSource) : Except Conflict Unit := do
  checkOnce "function" module.functions
  checkOnce "struct" module.structs
  checkOnce "enum" (module.enums.map fst)
  match (module.enums.map fst).find? fun name => name ∈ module.structs with
  | some name => .error (.bothKinds name)
  | none => .ok ()

/-- The tables of names while the imports of a module are added. -/
structure Known where
  structs : List String
  enums : List String
  variants : List String

def addName (conflict : Conflict) (name : String) (known : List String) :
    Except Conflict (List String) :=
  if name ∈ known then .error conflict else .ok (name :: known)

def addStructs (moduleName : String) : List String → Known → Except Conflict Known
  | [], known => .ok known
  | name :: rest, known => do
    let structs ← addName (.structName name moduleName) name known.structs
    addStructs moduleName rest { known with structs := structs }

def addVariants : List String → Known → Except Conflict Known
  | [], known => .ok known
  | name :: rest, known => do
    let variants ← addName (.variantName name) name known.variants
    addVariants rest { known with variants := variants }

def addEnums (moduleName : String) : List (String × List String) → Known → Except Conflict Known
  | [], known => .ok known
  | (name, variants) :: rest, known => do
    let enums ← addName (.enumName name moduleName) name known.enums
    let known ← addVariants variants { known with enums := enums }
    addEnums moduleName rest known

/-- The imports of a module, one after the other: `SemanticChecker.__init__`. -/
def addImports (graph : ModuleGraph) : List (String × String) → Known → Except Conflict Known
  | [], known => .ok known
  | (moduleName, key) :: rest, known => do
    let known ← addStructs moduleName (graph.structsOf key) known
    let known ← addEnums moduleName (graph.enumsOf key) known
    addImports graph rest known

/-- The variants of an enum of the module itself. -/
def checkOwnVariants (functions : List String) : List String → List String →
    Except Conflict (List String)
  | [], seen => .ok seen
  | name :: rest, seen =>
    if name ∈ seen ∨ name ∈ Names.checkerBuiltins ∨ name ∈ functions then
      .error (.ownVariant name)
    else checkOwnVariants functions rest (name :: seen)

/-- The enums of the module itself. -/
def checkOwnEnums (functions structs : List String) : List (String × List String) →
    List String → List String → Except Conflict Unit
  | [], _, _ => .ok ()
  | (name, variants) :: rest, names, seen =>
    if name ∈ names ∨ name ∈ structs ∨ name ∈ ["Option", "Result", "Error"] then
      .error (.ownEnum name)
    else if variants.isEmpty then .error (.emptyEnum name)
    else do
      let seen ← checkOwnVariants functions variants seen
      checkOwnEnums functions structs rest (name :: names) seen

/-- What `check_graph` refuses about the names of a module. The imports have been checked
before, so their declarations are dictionaries already. -/
def checkNames (graph : ModuleGraph) (module : ModuleSource) : Except Conflict Unit := do
  validateTopLevel module
  let known ← addImports graph module.imports ⟨module.structs, module.enums.map fst,
    module.enums.flatMap snd⟩
  checkOwnEnums module.functions known.structs module.enums [] []

/-! ## Tables filled from tagged names -/

section Tagged

variable {α β : Type} (names : α → List String) (tag : α → β)

theorem lookup_tagged_one (declared : List String) (item : β) (name : String) :
    (declared.map fun other => (other, item)).lookup name =
      if name ∈ declared then some item else none := by
  induction declared with
  | nil => rfl
  | cons other declared ih =>
    rw [map_cons, lookup_cons, ih]
    by_cases same : name = other
    · simp [same]
    · have differs : (name == other) = false := by simpa using same
      simp [differs, same]

/-- The first table that has a name. -/
theorem lookup_tagged (keys : List α) (name : String) :
    (keys.flatMap fun key => (names key).map fun other => (other, tag key)).lookup name =
      (keys.find? fun key => name ∈ names key).map tag := by
  induction keys with
  | nil => rfl
  | cons key keys ih =>
    rw [flatMap_cons, lookup_append, ih, lookup_tagged_one, find?_cons]
    by_cases declared : name ∈ names key
    · simp [declared]
    · simp [declared]

theorem lastItem_tagged (keys : List α) (name : String) : lastItem name
        (keys.flatMap fun key => (names key).map fun other => (other, tag key)) =
      (keys.reverse.find? fun key => name ∈ names key).map tag := by
  unfold lastItem
  rw [List.reverse_flatMap]
  have reversed : keys.reverse.flatMap (List.reverse ∘ fun key =>
      (names key).map fun other => (other, tag key)) =
        keys.reverse.flatMap fun key => (names key).reverse.map fun other => (other, tag key) := by
    congr 1
    funext key
    exact map_reverse.symm
  rw [reversed, lookup_tagged (fun key => (names key).reverse)]
  simp only [mem_reverse]

end Tagged

/-- Where at most one element has a property, the first and the last one with it are the same. -/
theorem find?_reverse_of_pairwise {α : Type} {property : α → Bool} {list : List α}
    (atMostOne : list.Pairwise fun a b => ¬ (property a = true ∧ property b = true)) :
    list.reverse.find? property = list.find? property := by
  induction list with
  | nil => rfl
  | cons first rest ih =>
    rw [pairwise_cons] at atMostOne
    rw [List.reverse_cons, List.find?_append, ih atMostOne.2, find?_cons]
    cases holds : property first with
    | false => simp [holds]
    | true =>
      have none_ : rest.find? property = none := by
        rw [find?_eq_none]
        intro other member also
        exact atMostOne.1 other member ⟨holds, also⟩
      simp [none_, holds]

/-- The last element with a property is a given one when no element after it has it. -/
theorem find?_reverse_eq_some_iff {property : String → Bool} {list : List String} {item : String}
    (distinct : list.Nodup) (member : item ∈ list) (holds : property item = true) :
    list.reverse.find? property = some item ↔
      ∀ later ∈ (list.dropWhile fun other => other ≠ item).tail, property later = false := by
  obtain ⟨before, after, rfl⟩ := append_of_mem member
  have absent : item ∉ before := by
    intro inside
    exact (nodup_append.mp distinct).2.2 item inside item mem_cons_self rfl
  have dropped : ((before ++ item :: after).dropWhile fun other => other ≠ item) =
      item :: after := by
    rw [dropWhile_append_of_pos]
    · simp
    · intro other inside
      rw [decide_eq_true_eq]
      rintro rfl
      exact absent inside
  have notAfter : item ∉ after := (nodup_cons.mp (nodup_append.mp distinct).2.1).1
  rw [dropped, tail_cons, reverse_append, List.reverse_cons, append_assoc, List.find?_append]
  constructor
  · intro found later inside
    by_contra also
    rw [not_eq_false] at also
    have some_ : (after.reverse.find? property).isSome = true := by
      rw [List.find?_isSome]
      exact ⟨later, mem_reverse.mpr inside, also⟩
    obtain ⟨other, isOther⟩ := isSome_iff_exists.mp some_
    rw [isOther, Option.some_or] at found
    cases found
    exact notAfter (mem_reverse.mp (mem_of_find?_eq_some isOther))
  · intro none_
    have nothing : after.reverse.find? property = none := by
      rw [find?_eq_none]
      intro later inside also
      rw [none_ later (mem_reverse.mp inside)] at also
      cases also
    rw [nothing, none_or, singleton_append, find?_cons, holds]

/-! ## The table of the runtime -/

section Runtime

variable {graph : ModuleGraph} {module : ModuleSource}

theorem moduleOf_mem {key : String}
    (found : graph.moduleOf key = some module) : module ∈ graph.modules ∧ module.key = key := by
  refine ⟨mem_of_find?_eq_some found, ?_⟩
  have same := find?_some found
  rwa [beq_iff_eq] at same

theorem targets_inside : ∀ key ∈ graph.modules.map ModuleSource.key,
    graph.targets key ⊆ graph.modules.map ModuleSource.key := by
  intro key _ target leads
  unfold ModuleGraph.targets at leads
  cases found : graph.moduleOf key with
  | none =>
    rw [found] at leads
    cases leads
  | some module =>
    rw [found, map_some, getD_some, mem_map] at leads
    obtain ⟨entry, inside, rfl⟩ := leads
    exact graph.imports_mem module (moduleOf_mem found).1 entry inside

theorem order_nodup : graph.inDependencyOrder.Nodup := postOrder_nodup targets_inside graph.root_mem

theorem order_imports {key : String}
    (listed : key ∈ graph.inDependencyOrder) (found : graph.moduleOf key = some module)
    {target : String} (imported : target ∈ module.imports.map snd) :
    target ∈ graph.inDependencyOrder := by
  apply postOrder_closed targets_inside graph.root_mem listed
  unfold ModuleGraph.targets
  rwa [found]

/-- Writing the root over the table changes nothing: it comes last already. -/
theorem runtime_eq (names : String → List String) (name : String) : runtime graph names name =
      graph.inDependencyOrder.reverse.find? fun key => name ∈ names key := by
  obtain ⟨before, order⟩ : ∃ before, graph.inDependencyOrder = before ++ [graph.root] :=
    postOrder_root _
  have tagged : runtimeEntries graph names = (graph.inDependencyOrder ++ [graph.root]).flatMap
      fun key => (names key).map fun declared => (declared, key) := by
    rw [List.flatMap_append, List.flatMap_singleton]
    rfl
  have whole := lastItem_tagged names (fun key => key) (graph.inDependencyOrder ++ [graph.root]) name
  rw [← tagged, Option.map_id'] at whole
  refine whole.trans ?_
  rw [order]
  simp only [reverse_append, List.reverse_singleton, singleton_append, find?_cons]
  cases decide (name ∈ names graph.root) with
  | true => rfl
  | false => rfl

/-- The runtime finds a declaration of a module exactly when no later module declares the name. -/
theorem runtime_iff {names : String → List String} {name provider : String}
    (listed : provider ∈ graph.inDependencyOrder) (declares : name ∈ names provider) :
    runtime graph names name = some provider ↔
      ∀ later ∈ graph.later provider, name ∉ names later := by
  rw [runtime_eq, find?_reverse_eq_some_iff order_nodup listed (decide_eq_true declares)]
  simp only [decide_eq_false_iff_not]
  rfl

end Runtime

/-! ## What an accepted module looks like -/

section Accepted

theorem addName_ok {conflict : Conflict} {name : String} {known known' : List String}
    (added : addName conflict name known = .ok known') : name ∉ known ∧ known' = name :: known := by
  unfold addName at added
  split at added
  · cases added
  · rename_i absent
    cases added
    exact ⟨absent, rfl⟩

/-- A step that adds names to a table: it keeps those that are there, has the new ones
afterwards, and would have refused a name that was there. -/
structure Adds (table : Known → List String) (names : List String) (before after : Known) :
    Prop where
  keeps : table before ⊆ table after
  has : names ⊆ table after
  new : ∀ name ∈ names, name ∉ table before

variable {table : Known → List String} {before after : Known}

theorem Adds.none (same : table after = table before) : Adds table [] before after :=
  ⟨by rw [same]; exact Subset.refl _, nil_subset _, nofun⟩

theorem Adds.one {name : String} (made : table after = name :: table before)
    (absent : name ∉ table before) : Adds table [name] before after where
  keeps := made ▸ subset_cons_self _ _
  has := cons_subset.mpr ⟨made ▸ mem_cons_self, nil_subset _⟩
  new := List.forall_mem_singleton.mpr absent

theorem Adds.trans {first second : List String} {a b c : Known}
    (one : Adds table first a b) (two : Adds table second b c) :
    Adds table (first ++ second) a c where
  keeps := Subset.trans one.keeps two.keeps
  has := List.append_subset.mpr ⟨Subset.trans one.has two.keeps, two.has⟩
  new := by
    intro name member present
    rcases mem_append.mp member with inFirst | inSecond
    · exact one.new name inFirst present
    · exact two.new name inSecond (one.keeps present)

variable {moduleName : String}

theorem addStructs_adds :
    ∀ {names : List String} {known known' : Known}, addStructs moduleName names known = .ok known' →
      Adds Known.structs names known known' ∧ known'.enums = known.enums ∧
        known'.variants = known.variants
  | [], _, _, added => by
    cases added
    exact ⟨Adds.none rfl, rfl, rfl⟩
  | name :: rest, known, _, added => by
    obtain ⟨structs, here, others⟩ := bind_eq_ok added
    obtain ⟨absent, rfl⟩ := addName_ok here
    obtain ⟨adds, enums, variants⟩ := addStructs_adds others
    exact ⟨(Adds.one rfl absent).trans adds, enums, variants⟩

theorem addVariants_adds : ∀ {names : List String} {known known' : Known},
    addVariants names known = .ok known' →
      Adds Known.variants names known known' ∧ known'.enums = known.enums ∧
        known'.structs = known.structs
  | [], _, _, added => by
    cases added
    exact ⟨Adds.none rfl, rfl, rfl⟩
  | name :: rest, known, _, added => by
    obtain ⟨variants, here, others⟩ := bind_eq_ok added
    obtain ⟨absent, rfl⟩ := addName_ok here
    obtain ⟨adds, enums, structs⟩ := addVariants_adds others
    exact ⟨(Adds.one rfl absent).trans adds, enums, structs⟩

theorem addEnums_adds :
    ∀ {enums : List (String × List String)} {known known' : Known},
      addEnums moduleName enums known = .ok known' →
        Adds Known.enums (enums.map fst) known known' ∧
          Adds Known.variants (enums.flatMap snd) known known' ∧ known'.structs = known.structs
  | [], _, _, added => by
    cases added
    exact ⟨Adds.none rfl, Adds.none rfl, rfl⟩
  | (name, variants) :: rest, known, known', added => by
    obtain ⟨enums, here, others⟩ := bind_eq_ok added
    obtain ⟨absent, rfl⟩ := addName_ok here
    obtain ⟨middle, inner, others⟩ := bind_eq_ok others
    obtain ⟨addsVariants, sameEnums, sameStructs⟩ := addVariants_adds inner
    obtain ⟨restEnums, restVariants, restStructs⟩ := addEnums_adds others
    have one : Adds Known.enums [name] known middle := .one sameEnums absent
    have two : Adds Known.variants variants known middle :=
      ⟨addsVariants.keeps, addsVariants.has, addsVariants.new⟩
    refine ⟨one.trans restEnums, ?_, restStructs.trans sameStructs⟩
    rw [flatMap_cons]
    exact two.trans restVariants

/-- No two of the imports have a name in common, and none has a name of the table. -/
structure Apart (table : List String) (names : String → List String) (keys : List String) :
    Prop where
  own : ∀ name ∈ table, ∀ key ∈ keys, name ∉ names key
  imports : ∀ name, keys.Pairwise fun a b => ¬ (name ∈ names a ∧ name ∈ names b)

theorem Apart.cons {table : Known → List String} {names : String → List String} {key : String}
    {keys : List String} (adds : Adds table (names key) before after)
    (rest : Apart (table after) names keys) : Apart (table before) names (key :: keys) where
  own := by
    intro name present other member
    rcases mem_cons.mp member with rfl | member
    · exact fun again => adds.new name again present
    · exact rest.own name (adds.keeps present) other member
  imports := by
    intro name
    refine pairwise_cons.mpr ⟨?_, rest.imports name⟩
    rintro other member ⟨first, second⟩
    exact rest.own name (adds.has first) other member second

variable {graph : ModuleGraph}

theorem addImports_apart : ∀ {imports : List (String × String)} {known known' : Known},
    addImports graph imports known = .ok known' →
      Apart known.structs graph.structsOf (imports.map snd) ∧
        Apart known.enums (enumNames graph) (imports.map snd) ∧
          Apart known.variants (fun key => (graph.enumsOf key).flatMap snd) (imports.map snd)
  | [], _, _, _ => ⟨⟨nofun, fun _ => .nil⟩, ⟨nofun, fun _ => .nil⟩, ⟨nofun, fun _ => .nil⟩⟩
  | (moduleName, key) :: rest, known, known', added => by
    obtain ⟨first, structs, others⟩ := bind_eq_ok added
    obtain ⟨second, enums, others⟩ := bind_eq_ok others
    obtain ⟨addsStructs, sameEnums, sameVariants⟩ := addStructs_adds structs
    obtain ⟨addsEnums, addsVariants, sameStructs⟩ := addEnums_adds enums
    obtain ⟨restStructs, restEnums, restVariants⟩ := addImports_apart others
    have toStructs : Adds Known.structs (graph.structsOf key) known second :=
      ⟨by rw [sameStructs]; exact addsStructs.keeps, by rw [sameStructs]; exact addsStructs.has,
        addsStructs.new⟩
    have toEnums : Adds Known.enums (enumNames graph key) known second :=
      ⟨by rw [← sameEnums]; exact addsEnums.keeps, addsEnums.has,
        by rw [← sameEnums]; exact addsEnums.new⟩
    have toVariants : Adds Known.variants ((graph.enumsOf key).flatMap snd) known second :=
      ⟨by rw [← sameVariants]; exact addsVariants.keeps, addsVariants.has,
        by rw [← sameVariants]; exact addsVariants.new⟩
    exact ⟨Apart.cons toStructs restStructs, Apart.cons toEnums restEnums,
      Apart.cons toVariants restVariants⟩

theorem firstTwice_none : ∀ {names seen : List String}, firstTwice names seen = none →
    names.Nodup ∧ ∀ name ∈ names, name ∉ seen
  | [], _, _ => ⟨nodup_nil, nofun⟩
  | name :: rest, seen, once => by
    rw [firstTwice] at once
    split at once
    · cases once
    · rename_i unseen
      obtain ⟨distinct, apart⟩ := firstTwice_none once
      refine ⟨nodup_cons.mpr ⟨?_, distinct⟩, ?_⟩
      · intro again
        exact apart name again mem_cons_self
      · intro other member
        rcases mem_cons.mp member with rfl | member
        · exact unseen
        · exact fun present => apart other member (mem_cons_of_mem _ present)

theorem checkOnce_ok {kind : String} {names : List String}
    (passed : checkOnce kind names = .ok ()) : names.Nodup := by
  unfold checkOnce at passed
  split at passed
  · cases passed
  · rename_i once
    exact (firstTwice_none once).1

theorem checkOwnVariants_ok {functions : List String} : ∀ {names seen seen' : List String},
    checkOwnVariants functions names seen = .ok seen' →
      seen ⊆ seen' ∧ names ⊆ seen' ∧ ∀ name ∈ names, name ∉ seen
  | [], _, _, passed => by
    cases passed
    exact ⟨Subset.refl _, nil_subset _, nofun⟩
  | name :: rest, seen, _, passed => by
    rw [checkOwnVariants] at passed
    split at passed
    · cases passed
    · rename_i allowed
      obtain ⟨keeps, has, new⟩ := checkOwnVariants_ok passed
      refine ⟨Subset.trans (subset_cons_self _ _) keeps,
        cons_subset.mpr ⟨keeps mem_cons_self, has⟩, ?_⟩
      intro other member
      rcases mem_cons.mp member with rfl | member
      · exact fun present => allowed (.inl present)
      · exact fun present => new other member (mem_cons_of_mem _ present)

theorem checkOwnEnums_ok {functions structs : List String} :
    ∀ {enums : List (String × List String)} {names seen : List String},
      checkOwnEnums functions structs enums names seen = .ok () →
        (∀ declaration ∈ enums, ∀ name ∈ declaration.2, name ∉ seen) ∧
          ∀ name, enums.Pairwise fun a b => ¬ (name ∈ a.2 ∧ name ∈ b.2)
  | [], _, _, _ => ⟨nofun, fun _ => .nil⟩
  | (enum, variants) :: rest, names, seen, passed => by
    rw [checkOwnEnums] at passed
    split at passed
    · cases passed
    · split at passed
      · cases passed
      · obtain ⟨seen', here, others⟩ := bind_eq_ok passed
        obtain ⟨keeps, has, new⟩ := checkOwnVariants_ok here
        obtain ⟨restNew, restApart⟩ := checkOwnEnums_ok others
        refine ⟨?_, fun name => pairwise_cons.mpr ⟨?_, restApart name⟩⟩
        · intro declaration member name inside
          rcases mem_cons.mp member with rfl | member
          · exact new name inside
          · exact fun present => restNew declaration member name inside (keeps present)
        · rintro declaration member ⟨first, second⟩
          exact restNew declaration member name second (has first)

/-- What acceptance says about the names of a module. -/
structure Accepted (graph : ModuleGraph) (module : ModuleSource) : Prop where
  enumsOnce : (module.enums.map fst).Nodup
  structs : Apart module.structs graph.structsOf (module.imports.map snd)
  enums : Apart (module.enums.map fst) (enumNames graph) (module.imports.map snd)
  variantsOnce : ∀ name, module.enums.Pairwise fun a b => ¬ (name ∈ a.2 ∧ name ∈ b.2)

theorem checkNames_ok {module : ModuleSource} (passed : checkNames graph module = .ok ()) :
    Accepted graph module := by
  obtain ⟨_, valid, rest⟩ := bind_eq_ok passed
  obtain ⟨known, imports, own⟩ := bind_eq_ok rest
  obtain ⟨_, _, valid⟩ := bind_eq_ok valid
  obtain ⟨_, _, valid⟩ := bind_eq_ok valid
  obtain ⟨_, enums, _⟩ := bind_eq_ok valid
  obtain ⟨structs, enumsApart, -⟩ := addImports_apart imports
  exact ⟨checkOnce_ok enums, structs, enumsApart, (checkOwnEnums_ok own).2⟩

end Accepted

/-! ## The tables agree -/

section Agreement

variable {graph : ModuleGraph} {names : String → List String} {module : ModuleSource}

theorem contracts_eq (name : String) : contracts names module name =
      ((module.key :: module.imports.map snd).reverse.find? fun key => name ∈ names key) := by
  have whole := lastItem_tagged names (fun key => key) (module.key :: module.imports.map snd) name
  rw [Option.map_id'] at whole
  exact whole

theorem belongsTo_eq (name : String) : belongsTo names module name =
      ((module.key :: module.imports.map snd).find? fun key => name ∈ names key) := by
  unfold belongsTo
  rw [find?_cons]
  by_cases declared : name ∈ names module.key
  · simp [declared]
  · simp [declared]

/-- In an accepted module the validator finds the declaration a name belongs to. -/
theorem contracts_eq_belongsTo
    (apart : Apart (names module.key) names (module.imports.map snd)) (name : String) :
    contracts names module name = belongsTo names module name := by
  rw [contracts_eq, belongsTo_eq]
  apply find?_reverse_of_pairwise
  refine pairwise_cons.mpr ⟨?_, ?_⟩
  · intro key member
    rw [decide_eq_true_eq, decide_eq_true_eq]
    rintro ⟨own, imported⟩
    exact apart.own name own key member imported
  · simpa only [decide_eq_true_eq] using apart.imports name

variable {key name provider variant enum : String}

section

variable (found : graph.moduleOf key = some module)

include found

theorem belongsTo_spec (listed : key ∈ graph.inDependencyOrder)
    (belongs : belongsTo names module name = some provider) :
    provider ∈ graph.inDependencyOrder ∧ name ∈ names provider := by
  rw [belongsTo_eq] at belongs
  have declares := find?_some belongs
  rw [decide_eq_true_eq] at declares
  refine ⟨?_, declares⟩
  rcases mem_cons.mp (mem_of_find?_eq_some belongs) with rfl | imported
  · rwa [(moduleOf_mem found).2]
  · exact order_imports listed found imported

/-- The validator and the runtime find the declaration a name belongs to exactly when no later
module declares the name. -/
theorem tables_agree_iff (listed : key ∈ graph.inDependencyOrder)
    (apart : Apart (names module.key) names (module.imports.map snd))
    (belongs : belongsTo names module name = some provider) :
    (contracts names module name = some provider ∧ runtime graph names name = some provider) ↔
      ∀ later ∈ graph.later provider, name ∉ names later := by
  obtain ⟨providerListed, declares⟩ := belongsTo_spec found listed belongs
  rw [contracts_eq_belongsTo apart, runtime_iff providerListed declares]
  exact ⟨And.right, fun none_ => ⟨belongs, none_⟩⟩

/-! ### Variants -/

omit found in
theorem mem_variantEntries {enum : EnumRef} (member : (variant, enum) ∈ variantEntries graph key) :
    ∃ declaration ∈ graph.enumsOf key, variant ∈ declaration.2 ∧ enum = (key, declaration.1) := by
  obtain ⟨declaration, inside, tagged⟩ := mem_flatMap.mp member
  obtain ⟨declared, isVariant, equal⟩ := mem_map.mp tagged
  cases equal
  exact ⟨declaration, inside, isVariant, rfl⟩

omit found in
theorem mem_of_lookup_entry {α : Type} {entries : List (String × α)} {item : α}
    (found : entries.lookup key = some item) : (key, item) ∈ entries := by
  obtain ⟨before, after, rfl, -⟩ := lookup_eq_some_iff.mp found
  exact mem_append_right _ mem_cons_self

theorem enumsOf_of_moduleOf : graph.enumsOf key = module.enums := by
  unfold ModuleGraph.enumsOf
  rw [found]
  rfl

theorem checkerVariant_eq (accepted : Accepted graph module) (variant : String) :
    checkerVariant graph module variant = variantBelongsTo graph module variant := by
  have enums : graph.enumsOf module.key = module.enums := by
    rw [(moduleOf_mem found).2, enumsOf_of_moduleOf found]
  have same : lastItem variant (variantEntries graph module.key) =
      (variantEntries graph module.key).lookup variant := by
    unfold variantEntries
    rw [lastItem_tagged snd (fun declaration => (module.key, declaration.1)),
      lookup_tagged snd (fun declaration => (module.key, declaration.1)), enums,
      find?_reverse_of_pairwise]
    simpa only [decide_eq_true_eq] using accepted.variantsOnce variant
  unfold checkerVariant variantBelongsTo
  rw [same]

end

/-- A module declares an enum, and no later one does. -/
structure LastDeclares (graph : ModuleGraph) (enum key : String) : Prop where
  listed : key ∈ graph.inDependencyOrder
  declares : enum ∈ enumNames graph key
  last : ∀ later ∈ graph.later key, enum ∉ enumNames graph later

theorem runtime_some_iff :
    runtime graph (enumNames graph) enum = some key ↔ LastDeclares graph enum key := by
  constructor
  · intro found
    have inOrder := found
    rw [runtime_eq] at inOrder
    have listed := mem_reverse.mp (mem_of_find?_eq_some inOrder)
    have declares := find?_some inOrder
    rw [decide_eq_true_eq] at declares
    exact ⟨listed, declares, (runtime_iff listed declares).mp found⟩
  · intro lastOne
    exact (runtime_iff lastOne.listed lastOne.declares).mpr lastOne.last

theorem mem_graphEntries (lastOne : LastDeclares graph enum key) :
    enum ∈ (graphEntries graph (enumNames graph)).map fst := by
  refine mem_map.mpr ⟨(enum, key), mem_flatMap.mpr ⟨key, lastOne.listed, ?_⟩, rfl⟩
  exact mem_map_of_mem lastOne.declares

/-- The enum of a variant at run time: the last one in the table that has it. -/
theorem runtimeVariant_iff : runtimeVariant graph variant = some (key, enum) ↔
      LastDeclares graph enum key ∧ variant ∈ graph.variantsOf key enum ∧
        ∀ other otherKey, other ≠ enum → LastDeclares graph other otherKey →
          variant ∈ graph.variantsOf otherKey other →
            Dictionary.Earlier other enum ((graphEntries graph (enumNames graph)).map fst) := by
  have tagged := lastItem_tagged (fun entry : String × String => graph.variantsOf entry.2 entry.1)
    (fun entry => (entry.2, entry.1)) (allEnums graph) variant
  unfold runtimeVariant
  rw [tagged]
  have swap : ∀ found : Option (String × String),
      found.map (fun entry => (entry.2, entry.1)) = some (key, enum) ↔
        found = some (enum, key) := by
    intro found
    cases found with
    | none => simp
    | some entry =>
      obtain ⟨first, second⟩ := entry
      simp [and_comm]
  rw [swap]
  unfold allEnums
  rw [Dictionary.find?_reverse_ofEntries]
  have table : ∀ other otherKey, lastItem other
      (runtimeEntries graph (enumNames graph)) = some otherKey ↔
        LastDeclares graph other otherKey := fun _ _ => runtime_some_iff
  simp only [table, decide_eq_true_eq]
  -- The names of the root are written once more, after its enums are there.
  have earlier : enum ∈ (graphEntries graph (enumNames graph)).map fst → ∀ other,
      Dictionary.Earlier other enum ((runtimeEntries graph (enumNames graph)).map fst) ↔
        Dictionary.Earlier other enum ((graphEntries graph (enumNames graph)).map fst) := by
    intro member other
    unfold runtimeEntries Dictionary.Earlier
    rw [map_append, Dictionary.takeWhile_append_of_mem member]
  constructor
  · rintro ⟨lastOne, has, others⟩
    refine ⟨lastOne, has, fun other otherKey apart lastOther hasOther => ?_⟩
    exact (earlier (mem_graphEntries lastOne) other).mp
      (others other otherKey apart lastOther hasOther)
  · rintro ⟨lastOne, has, others⟩
    refine ⟨lastOne, has, fun other otherKey apart lastOther hasOther => ?_⟩
    exact (earlier (mem_graphEntries lastOne) other).mpr
      (others other otherKey apart lastOther hasOther)

theorem variantBelongsTo_spec
    (accepted : ∀ key ∈ graph.inDependencyOrder, ∀ module, graph.moduleOf key = some module →
      Accepted graph module)
    (listed : key ∈ graph.inDependencyOrder) (found : graph.moduleOf key = some module)
    (belongs : variantBelongsTo graph module variant = some (provider, enum)) :
    provider ∈ graph.inDependencyOrder ∧ enum ∈ enumNames graph provider ∧
      variant ∈ graph.variantsOf provider enum := by
  have place : provider ∈ graph.inDependencyOrder ∧
      (variant, (provider, enum)) ∈ variantEntries graph provider := by
    unfold variantBelongsTo at belongs
    split at belongs
    · rename_i own
      cases belongs
      have member := mem_of_lookup_entry own
      obtain ⟨declaration, -, -, equal⟩ := mem_variantEntries member
      cases equal
      rw [(moduleOf_mem found).2] at member ⊢
      exact ⟨listed, member⟩
    · obtain ⟨target, imported, member⟩ := mem_flatMap.mp (mem_of_lookup_entry belongs)
      obtain ⟨declaration, -, -, equal⟩ := mem_variantEntries member
      cases equal
      exact ⟨order_imports listed found imported, member⟩
  obtain ⟨declaration, inside, isVariant, equal⟩ := mem_variantEntries place.2
  cases equal
  refine ⟨place.1, mem_map_of_mem inside, ?_⟩
  cases home : graph.moduleOf provider with
  | none =>
    unfold ModuleGraph.enumsOf at inside
    rw [home] at inside
    cases inside
  | some other =>
    have once := (accepted provider place.1 other home).enumsOnce
    rw [← enumsOf_of_moduleOf home] at once
    obtain ⟨before, after, split⟩ := append_of_mem inside
    have first : (graph.enumsOf provider).lookup declaration.1 = some declaration.2 := by
      rw [lookup_eq_some_iff]
      refine ⟨before, after, split, ?_⟩
      intro earlier member
      rw [split, map_append, map_cons, nodup_append] at once
      have apart := once.2.2 earlier.1 (mem_map_of_mem member) declaration.1 mem_cons_self
      simpa using fun same => apart same.symm
    unfold ModuleGraph.variantsOf
    rw [first]
    exact isVariant

end Agreement

/-- In every module of an accepted graph: the validator and the runtime find the struct or enum a
name belongs to exactly when no later module of the graph declares the name; the checker and the
runtime find the enum a variant belongs to exactly when no later module declares the enum and
every other enum with the variant has a name that occurs earlier in the graph. -/
theorem declarations_agree_iff (graph : ModuleGraph)
    (accepted : ∀ key ∈ graph.inDependencyOrder, ∀ module, graph.moduleOf key = some module →
      checkNames graph module = .ok ())
    {key : String} {module : ModuleSource} (listed : key ∈ graph.inDependencyOrder)
    (found : graph.moduleOf key = some module) :
    (∀ name provider, belongsTo graph.structsOf module name = some provider →
      ((contracts graph.structsOf module name = some provider ∧
        runtime graph graph.structsOf name = some provider) ↔
          ∀ later ∈ graph.later provider, name ∉ graph.structsOf later)) ∧
    (∀ name provider, belongsTo (enumNames graph) module name = some provider →
      ((contracts (enumNames graph) module name = some provider ∧
        runtime graph (enumNames graph) name = some provider) ↔
          ∀ later ∈ graph.later provider, name ∉ enumNames graph later)) ∧
    ∀ variant provider enum, variantBelongsTo graph module variant = some (provider, enum) →
      ((checkerVariant graph module variant = some (provider, enum) ∧
        runtimeVariant graph variant = some (provider, enum)) ↔
          (∀ later ∈ graph.later provider, enum ∉ enumNames graph later) ∧
            ∀ other otherKey, other ≠ enum → LastDeclares graph other otherKey →
              variant ∈ graph.variantsOf otherKey other → Dictionary.Earlier other enum
                  ((graphEntries graph (enumNames graph)).map fst)) := by
  have known : ∀ key ∈ graph.inDependencyOrder, ∀ module, graph.moduleOf key = some module →
      Accepted graph module := by
    intro key listed module found
    exact checkNames_ok (accepted key listed module found)
  have here := known key listed module found
  have home := (moduleOf_mem found).2
  have structs : graph.structsOf module.key = module.structs := by
    unfold ModuleGraph.structsOf
    rw [home, found]
    rfl
  have enums : enumNames graph module.key = module.enums.map fst := by
    unfold enumNames
    rw [home, enumsOf_of_moduleOf found]
  refine ⟨?_, ?_, ?_⟩
  · intro name provider belongs
    exact tables_agree_iff found listed (by rw [structs]; exact here.structs) belongs
  · intro name provider belongs
    exact tables_agree_iff found listed (by rw [enums]; exact here.enums) belongs
  · intro variant provider enum belongs
    obtain ⟨providerListed, declares, has⟩ := variantBelongsTo_spec known listed found belongs
    rw [checkerVariant_eq found here, runtimeVariant_iff]
    constructor
    · rintro ⟨-, lastOne, -, others⟩
      exact ⟨lastOne.last, others⟩
    · rintro ⟨last, others⟩
      exact ⟨belongs, ⟨providerListed, declares, last⟩, has, others⟩

/-- Three modules: `main` imports `a`, which imports `b`, and `b` declares the struct `P`. -/
def chain (mainStructs : List String) : ModuleGraph where
  root := "main"
  modules := [⟨"main", [("a", "a")], ["main"], mainStructs, []⟩, ⟨"a", [("b", "b")], [], [], []⟩,
    ⟨"b", [], [], ["P"], []⟩]
  root_mem := by simp
  imports_mem := by simp

/-- Without another `P` all tables have the struct of `b`. -/
theorem chain_agrees : contracts (chain []).structsOf ⟨"b", [], [], ["P"], []⟩ "P" = some "b" ∧
      runtime (chain []) (chain []).structsOf "P" = some "b" := by
  have order : (chain []).inDependencyOrder = ["b", "a", "main"] := by decide
  have accepted : ∀ key ∈ (chain []).inDependencyOrder, ∀ module,
      (chain []).moduleOf key = some module → checkNames (chain []) module = .ok () := by
    intro key listed module found
    rw [order] at listed
    simp only [mem_cons, not_mem_nil, or_false] at listed
    rcases listed with rfl | rfl | rfl <;>
      · cases Option.some.inj found
        decide
  have listed : "b" ∈ (chain []).inDependencyOrder := by decide
  exact ((declarations_agree_iff (chain []) accepted listed rfl).1 "P" "b" (by decide)).mpr
    (by decide)

/-- Where `main` declares a `P` of its own, the runtime takes it for the struct of `b`. -/
theorem chain_disagrees : (["b", "a", "main"].all fun key =>
      ((chain ["P"]).moduleOf key).any fun module =>
        checkNames (chain ["P"]) module = .ok ()) = true ∧
      (chain ["P"]).inDependencyOrder = ["b", "a", "main"] ∧
        contracts (chain ["P"]).structsOf ⟨"b", [], [], ["P"], []⟩ "P" = some "b" ∧
          runtime (chain ["P"]) (chain ["P"]).structsOf "P" = some "main" := by
  decide

end Koschei.Modules
