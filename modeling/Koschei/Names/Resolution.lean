import Koschei.Ast.Evaluate
import Koschei.Core.Plain

/-!
# What a name denotes

An identifier is resolved three times: by `SemanticChecker`, by the interpreter
and by the lowered code. Each asks the visible bindings and the tables of the
module in an order of its own: the checker starts with the bindings, the
interpreter ends with them, and the lowered code takes a name with a capital
letter for a variant and then looks into a table that keeps the bindings of
closed scopes. The checker does not refuse a binding with the name of a
function, an import, a variant or a builtin, so the orders matter.

`occurrences` lists the identifiers of a function with the scopes they stand in.
An occurrence is clear when no table that one of the lanes asks earlier has its
name, and that is exactly when it denotes one thing everywhere.
-/

namespace Koschei.Names

open Lib Ast

/-- What an identifier denotes: the binding of a visible scope, counted from the innermost one,
a binding of a scope that has been left, or something that has the name everywhere. -/
inductive Entity where
  | binding (depth : Nat)
  | closed (name : String)
  | function (name : String)
  | module (name : String)
  | variant (owner name : String)
  | builtin (name : String)
  | nothing
  deriving DecidableEq

/-- The names of a module: its functions, its imports, the variants the checker knows with their
enums, and the variants the runtime has constructors for. -/
structure Tables where
  functions : List String
  imports : List String
  variants : String → Option String
  constructors : String → Option String

/-- Where an identifier stands: it is read, with its checked type; it is called, with the checked
type of the call; a field of it is assigned; it is assigned. -/
inductive Position where
  | value (type : TypeNode)
  | callee (type result : TypeNode)
  | owner (type : TypeNode)
  | target

/-- An identifier with the names of the scopes it stands in, the innermost first. -/
structure Occurrence where
  name : String
  position : Position
  scopes : List (List String)

/-! ## The identifiers of a function -/

/-- Declare a name in the innermost scope. -/
def declareName (name : String) : List (List String) → List (List String)
  | [] => [[name]]
  | scope :: scopes => (name :: scope) :: scopes

def scopesAfter (scopes : List (List String)) : Stmt → List (List String)
  | .letIn name _ _ => declareName name scopes
  | _ => scopes

mutual
/-- The identifiers of an expression, each with the scopes it stands in. -/
def exprOccurrences (scopes : List (List String)) : Expr → List Occurrence
  | .literal _ _ => []
  | .ident name type => [⟨name, .value type, scopes⟩]
  | .interpolated parts _ => allOccurrences scopes parts
  | .list items _ => allOccurrences scopes items
  | .map entries _ => entriesOccurrences scopes entries
  | .struct _ fields _ _ => fieldsOccurrences scopes fields
  | .member object _ _ => exprOccurrences scopes object
  | .call (.ident name type) arguments _ result =>
    ⟨name, .callee type result, scopes⟩ :: allOccurrences scopes arguments
  | .call callee arguments _ _ => exprOccurrences scopes callee ++ allOccurrences scopes arguments
  | .assign name value _ => ⟨name, .target, scopes⟩ :: exprOccurrences scopes value
  | .assignField object type _ value _ =>
    ⟨object, .owner type, scopes⟩ :: exprOccurrences scopes value
  | .binary left _ right _ => exprOccurrences scopes left ++ exprOccurrences scopes right
  | .unary _ operand _ => exprOccurrences scopes operand
  | .orReturn value none _ => exprOccurrences scopes value
  | .orReturn value (some error) _ => exprOccurrences scopes value ++ exprOccurrences scopes error
  | .orElse value other _ => exprOccurrences scopes value ++ exprOccurrences scopes other
  | .orBlock value handler _ =>
    exprOccurrences scopes value ++ stmtsOccurrences ([] :: scopes) handler
  | .matchOn value arms _ _ => exprOccurrences scopes value ++ armsOccurrences scopes arms

def allOccurrences (scopes : List (List String)) : List Expr → List Occurrence
  | [] => []
  | expression :: rest => exprOccurrences scopes expression ++ allOccurrences scopes rest

def entriesOccurrences (scopes : List (List String)) : List (Expr × Expr) → List Occurrence
  | [] => []
  | (key, value) :: rest =>
    exprOccurrences scopes key ++ exprOccurrences scopes value ++ entriesOccurrences scopes rest

def fieldsOccurrences (scopes : List (List String)) : List (String × Expr) → List Occurrence
  | [] => []
  | (_, value) :: rest => exprOccurrences scopes value ++ fieldsOccurrences scopes rest

/-- The payload of an arm is in a scope of its own, and the block of an arm in one more. -/
def armsOccurrences (scopes : List (List String)) : List Arm → List Occurrence
  | [] => []
  | .expression _ _ binding body :: rest =>
    exprOccurrences ((binding.toList.map fst) :: scopes) body ++ armsOccurrences scopes rest
  | .block _ _ binding body :: rest =>
    stmtsOccurrences ([] :: (binding.toList.map fst) :: scopes) body ++
      armsOccurrences scopes rest

def stmtOccurrences (scopes : List (List String)) : Stmt → List Occurrence
  | .letIn _ _ value => exprOccurrences scopes value
  | .ret none => []
  | .ret (some value) => exprOccurrences scopes value
  | .expression expression => exprOccurrences scopes expression
  | .ifThen statement => ifOccurrences scopes statement
  | .whileDo condition body _ =>
    exprOccurrences scopes condition ++ stmtsOccurrences ([] :: scopes) body
  | .forIn name iterable body _ =>
    exprOccurrences scopes iterable ++ stmtsOccurrences ([name] :: scopes) body
  | .breakLoop => []
  | .continueLoop => []

def ifOccurrences (scopes : List (List String)) : IfStmt → List Occurrence
  | .mk condition thenBlock elseBranch =>
    exprOccurrences scopes condition ++ stmtsOccurrences ([] :: scopes) thenBlock ++
      elseOccurrences scopes elseBranch

def elseOccurrences (scopes : List (List String)) : Else → List Occurrence
  | .nothing => []
  | .block statements => stmtsOccurrences ([] :: scopes) statements
  | .elseIf statement => ifOccurrences scopes statement

def stmtsOccurrences (scopes : List (List String)) : List Stmt → List Occurrence
  | [] => []
  | statement :: rest =>
    stmtOccurrences scopes statement ++ stmtsOccurrences (scopesAfter scopes statement) rest
end

/-- The identifiers of a function, whose parameters are in the outermost scope. -/
def functionOccurrences (function : FunctionDeclaration) : List Occurrence :=
  stmtsOccurrences [function.parameters.map Parameter.name] function.body

/-! ## The tables of a module -/

/-- The enums of a module: their names and the names of their variants. -/
abbrev Enums := List (String × List String)

def variantsOf (enums : Enums) : List (String × String) :=
  enums.flatMap fun declaration => declaration.2.map fun variant => (variant, declaration.1)

/-- The constructors of Option and Result, which every runtime has. -/
def builtinConstructors : List (String × String) :=
  [("Some", "Option"), ("None", "Option"), ("Ok", "Result"), ("Err", "Result")]

/-- The tables of a module. The checker keeps the first enum of a variant among its own enums and
those it imports; the runtime has one table for the whole program, where the last one stays. -/
def tablesOf (functions imports : List String) (own imported program : Enums) : Tables where
  functions := functions
  imports := imports
  variants := fun name => (variantsOf (own ++ imported)).lookup name
  constructors := fun name => (builtinConstructors ++ variantsOf program).reverse.lookup name

/-! ## The three resolutions -/

/-- `_resolve`: the innermost scope that has the name. -/
def visible (name : String) (scopes : List (List String)) : Option Nat :=
  scopes.findIdx? fun scope => scope.contains name

/-- The names the checker lets pass as builtins: `BUILTIN_CALLS`, with what the language
extensions add to it. -/
def checkerBuiltins : List String :=
  ["print", "println", "Error", "Some", "None", "Ok", "Err"] ++ extensionBuiltins

/-- The constructors of Option and Result are builtins of the checker. -/
def builtinEntity (name : String) : Entity :=
  if ["Some", "None"].contains name then .variant "Option" name
  else if ["Ok", "Err"].contains name then .variant "Result" name
  else .builtin name

section Lanes

variable (tables : Tables)

/-- `_check_expression` on an identifier. -/
def checkerIdentifier (scopes : List (List String)) (name : String) : Entity :=
  match visible name scopes with
  | some depth => .binding depth
  | none =>
    if tables.functions.contains name then .function name
    else if tables.imports.contains name then .module name
    else
      match tables.variants name with
      | some owner => .variant owner name
      | none => if checkerBuiltins.contains name then builtinEntity name else .nothing

/-- `_check_expression` on a call of an identifier: the extensions come first, and the functions
and constructors come before the bindings. -/
def checkerCallee (scopes : List (List String)) (name : String) : Entity :=
  if extensionBuiltins.contains name then .builtin name
  else if tables.functions.contains name then .function name
  else
    match tables.variants name with
    | some owner => .variant owner name
    | none =>
      if ["Error", "Some", "None", "Ok", "Err"].contains name then builtinEntity name
      else checkerIdentifier tables scopes name

def bindingOnly (scopes : List (List String)) (name : String) : Entity :=
  match visible name scopes with
  | some depth => .binding depth
  | none => .nothing

/-- What the checker takes an identifier for. -/
def checkerEntity (occurrence : Occurrence) : Entity := match occurrence.position with
  | .value _ => checkerIdentifier tables occurrence.scopes occurrence.name
  | .callee _ _ => checkerCallee tables occurrence.scopes occurrence.name
  | .owner _ | .target => bindingOnly occurrence.scopes occurrence.name

/-- `_evaluate` on an identifier: the bindings come last. -/
def interpreterIdentifier (scopes : List (List String)) (name : String) : Entity :=
  if extensionBuiltins.contains name then .builtin name
  else if tables.functions.contains name then .function name
  else
    match tables.constructors name with
    | some owner => .variant owner name
    | none =>
      if ["print", "println", "Error"].contains name then .builtin name
      else if tables.imports.contains name then .module name
      else bindingOnly scopes name

/-- What the interpreter evaluates an identifier to. A callee is evaluated like any other; the
target of an assignment is looked up among the bindings. -/
def interpreterEntity (occurrence : Occurrence) : Entity := match occurrence.position with
  | .value _ | .callee _ _ => interpreterIdentifier tables occurrence.scopes occurrence.name
  | .owner _ | .target => bindingOnly occurrence.scopes occurrence.name

/-- The enum under which a name with a capital letter is lowered to a variant. -/
def sealedOwner (host : Host) (name : String) (type : TypeNode) : Option String :=
  if variantName host name && (constructIdentity type name).isSome then type.headName else none

/-- The enum of the variant an occurrence is lowered to; a call is asked before its callee. -/
def Occurrence.sealed (host : Host) (occurrence : Occurrence) : Option String :=
  match occurrence.position with
  | .value type | .owner type => sealedOwner host occurrence.name type
  | .callee type result =>
    match sealedOwner host occurrence.name result with
    | some owner => some owner
    | none => sealedOwner host occurrence.name type
  | .target => none

/-- `_load_name`, after the lowering has resolved the visible bindings. `left` are the names that
bindings of closed scopes have in the table of the frame. -/
def loadEntity (left : List String) (scopes : List (List String)) (name : String) : Entity :=
  match visible name scopes with
  | some depth => .binding depth
  | none =>
    if left.contains name then .closed name
    else if tables.functions.contains name then .function name
    else
      match tables.constructors name with
      | some owner => .variant owner name
      | none =>
        if builtinCalls.contains name then .builtin name
        else if tables.imports.contains name then .module name
        else .nothing

/-- What the lowered code does for an identifier. -/
def mirEntity (host : Host) (left : List String) (occurrence : Occurrence) : Entity :=
  match occurrence.position with
  | .target => bindingOnly occurrence.scopes occurrence.name
  | _ =>
    match occurrence.sealed host with
    | some owner => .variant owner occurrence.name
    | none => loadEntity tables left occurrence.scopes occurrence.name

/-! ## Clear occurrences -/

/-- Nothing the lowered code asks before the tables of the module has the name. -/
def Unhidden (host : Host) (left : List String) (occurrence : Occurrence) : Prop :=
  occurrence.sealed host = none ∧ visible occurrence.name occurrence.scopes = none ∧
    occurrence.name ∉ left

/-- A binding that is read in the interpreter has no name of its own in any table. -/
def ReadsBinding (occurrence : Occurrence) : Prop := match occurrence.position with
  | .value _ | .callee _ _ =>
    occurrence.name ∉ extensionBuiltins ∧ occurrence.name ∉ tables.functions ∧
      tables.constructors occurrence.name = none ∧
      occurrence.name ∉ ["print", "println", "Error"] ∧ occurrence.name ∉ tables.imports
  | .owner _ | .target => True

/-- No table that a lane asks before the one the checker found the name in has the name too. -/
def Clear (host : Host) (left : List String) (occurrence : Occurrence) : Prop :=
  match checkerEntity tables occurrence with
  | .binding _ => occurrence.sealed host = none ∧ ReadsBinding tables occurrence
  | .function name => Unhidden host left occurrence ∧ name ∉ extensionBuiltins
  | .module name => Unhidden host left occurrence ∧ name ∉ extensionBuiltins ∧
      name ∉ builtinCalls ∧ tables.constructors name = none
  | .variant owner name => name ∉ extensionBuiltins ∧ tables.constructors name = some owner ∧
      (occurrence.sealed host = some owner ∨ Unhidden host left occurrence)
  | .builtin name => Unhidden host left occurrence ∧ name ∈ builtinCalls ∧
      name ∉ tables.functions ∧ tables.constructors name = none
  | .closed _ | .nothing => False

end Lanes

section Agreement

variable {tables : Tables} {scopes : List (List String)} {name : String} {left : List String}

/-! ### The interpreter -/

theorem interpreter_binding {depth : Nat} (seen : visible name scopes = some depth) :
    interpreterIdentifier tables scopes name = .binding depth ↔
      name ∉ extensionBuiltins ∧ name ∉ tables.functions ∧ tables.constructors name = none ∧
        name ∉ ["print", "println", "Error"] ∧ name ∉ tables.imports := by
  unfold interpreterIdentifier bindingOnly
  rw [seen]
  simp only [contains_iff_mem]
  repeat' split
  all_goals simp_all

theorem interpreter_function (declared : name ∈ tables.functions) :
    interpreterIdentifier tables scopes name = .function name ↔ name ∉ extensionBuiltins := by
  unfold interpreterIdentifier
  simp only [contains_iff_mem]
  repeat' split
  all_goals simp_all

section

variable (undeclared : name ∉ tables.functions)

include undeclared

theorem interpreter_module (imported : name ∈ tables.imports) :
    interpreterIdentifier tables scopes name = .module name ↔
      name ∉ extensionBuiltins ∧ tables.constructors name = none ∧
        name ∉ ["print", "println", "Error"] := by
  unfold interpreterIdentifier
  simp only [contains_iff_mem]
  repeat' split
  all_goals simp_all

variable {owner : String}

theorem interpreter_variant :
    interpreterIdentifier tables scopes name = .variant owner name ↔
      name ∉ extensionBuiltins ∧ tables.constructors name = some owner := by
  unfold interpreterIdentifier bindingOnly
  simp only [contains_iff_mem]
  repeat' split
  all_goals simp_all

omit undeclared in
theorem interpreter_builtin : interpreterIdentifier tables scopes name = .builtin name ↔
      name ∈ extensionBuiltins ∨ name ∉ tables.functions ∧ tables.constructors name = none ∧
        name ∈ ["print", "println", "Error"] := by
  unfold interpreterIdentifier bindingOnly
  simp only [contains_iff_mem]
  repeat' split
  all_goals simp_all

/-! ### The lowered code -/

omit undeclared in
theorem load_function (declared : name ∈ tables.functions) :
    loadEntity tables left scopes name = .function name ↔
      visible name scopes = none ∧ name ∉ left := by
  unfold loadEntity
  simp only [contains_iff_mem]
  repeat' split
  all_goals simp_all

theorem load_module (imported : name ∈ tables.imports) :
    loadEntity tables left scopes name = .module name ↔
      (visible name scopes = none ∧ name ∉ left) ∧ name ∉ builtinCalls ∧
        tables.constructors name = none := by
  unfold loadEntity
  simp only [contains_iff_mem]
  repeat' split
  all_goals simp_all

theorem load_variant :
    loadEntity tables left scopes name = .variant owner name ↔
      (visible name scopes = none ∧ name ∉ left) ∧ tables.constructors name = some owner := by
  unfold loadEntity
  simp only [contains_iff_mem]
  repeat' split
  all_goals simp_all

end

theorem load_builtin : loadEntity tables left scopes name = .builtin name ↔
      (visible name scopes = none ∧ name ∉ left) ∧ name ∈ builtinCalls ∧
        name ∉ tables.functions ∧ tables.constructors name = none := by
  unfold loadEntity
  simp only [contains_iff_mem]
  repeat' split
  all_goals simp_all

/-! ### The checker -/

/-- What the checker can have found under a name. -/
inductive Found (tables : Tables) (scopes : List (List String)) (name : String) : Entity → Prop
  | binding (depth : Nat) : visible name scopes = some depth →
      Found tables scopes name (.binding depth)
  | function : name ∈ tables.functions → Found tables scopes name (.function name)
  | module : name ∉ tables.functions → name ∈ tables.imports →
      Found tables scopes name (.module name)
  | variant (owner : String) : name ∉ tables.functions →
      Found tables scopes name (.variant owner name)
  | builtin : Found tables scopes name (.builtin name)
  | nothing : Found tables scopes name .nothing

theorem found_builtinEntity (undeclared : name ∉ tables.functions) :
    Found tables scopes name (builtinEntity name) := by
  unfold builtinEntity
  split
  · exact .variant "Option" undeclared
  · split
    · exact .variant "Result" undeclared
    · exact .builtin

theorem found_identifier : Found tables scopes name (checkerIdentifier tables scopes name) := by
  unfold checkerIdentifier
  split
  · rename_i depth seen
    exact .binding depth seen
  · split
    · rename_i declared
      exact .function (contains_iff_mem.mp declared)
    · rename_i undeclared
      rw [contains_iff_mem] at undeclared
      split
      · rename_i imported
        exact .module undeclared (contains_iff_mem.mp imported)
      · split
        · exact .variant _ undeclared
        · split
          · exact found_builtinEntity undeclared
          · exact .nothing

theorem found_callee : Found tables scopes name (checkerCallee tables scopes name) := by
  unfold checkerCallee
  split
  · exact .builtin
  · split
    · rename_i declared
      exact .function (contains_iff_mem.mp declared)
    · rename_i undeclared
      rw [contains_iff_mem] at undeclared
      split
      · exact .variant _ undeclared
      · split
        · exact found_builtinEntity undeclared
        · exact found_identifier

theorem bindingOnly_known (known : bindingOnly scopes name ≠ .nothing) :
    ∃ depth, visible name scopes = some depth ∧ bindingOnly scopes name = .binding depth := by
  unfold bindingOnly at *
  split at known
  · rename_i depth seen
    exact ⟨depth, seen, rfl⟩
  · exact absurd rfl known

theorem printing_builtinCalls (printing : name ∈ ["print", "println", "Error"]) :
    name ∈ builtinCalls := by
  revert name
  decide

/-- A builtin of the runtime is an extension or one of the three old ones. -/
theorem builtinCalls_cases (known : name ∈ builtinCalls) :
    name ∈ extensionBuiltins ∨ name ∈ ["print", "println", "Error"] := by
  revert name
  decide

/-! ### Agreement -/

variable {occurrence : Occurrence} {entity : Entity} {host : Host}

/-- The lowered code denotes what the checker found, where the occurrence is not lowered to a
variant and the tables agree. -/
theorem mir_eq_iff (reads : occurrence.position ≠ .target) :
    mirEntity tables host left occurrence = entity ↔
      (∃ owner, occurrence.sealed host = some owner ∧ entity = .variant owner occurrence.name) ∨
        (occurrence.sealed host = none ∧
          loadEntity tables left occurrence.scopes occurrence.name = entity) := by
  unfold mirEntity
  split
  · contradiction
  · split
    · rename_i owner found
      simp [found, eq_comm]
    · rename_i missing
      simp [missing]

theorem read_agrees_iff (reads : occurrence.position ≠ .target) (known : entity ≠ .nothing)
    (found : Found tables occurrence.scopes occurrence.name entity)
    (entityHere : checkerEntity tables occurrence = entity)
    (evaluates : interpreterEntity tables occurrence =
      interpreterIdentifier tables occurrence.scopes occurrence.name)
    (readsBinding : ReadsBinding tables occurrence ↔ occurrence.name ∉ extensionBuiltins ∧
      occurrence.name ∉ tables.functions ∧ tables.constructors occurrence.name = none ∧
        occurrence.name ∉ ["print", "println", "Error"] ∧ occurrence.name ∉ tables.imports) :
    (interpreterEntity tables occurrence = checkerEntity tables occurrence ∧
      mirEntity tables host left occurrence = checkerEntity tables occurrence) ↔
        Clear tables host left occurrence := by
  unfold Clear Unhidden
  rw [entityHere, evaluates, mir_eq_iff reads]
  cases found with
  | binding depth seen =>
    have loaded : loadEntity tables left occurrence.scopes occurrence.name = .binding depth := by
      unfold loadEntity
      rw [seen]
    rw [interpreter_binding seen, loaded, readsBinding]
    simp [and_comm]
  | function declared =>
    rw [interpreter_function declared, load_function declared]
    simp [and_comm, and_assoc]
  | module undeclared imported =>
    rw [interpreter_module undeclared imported, load_module undeclared imported]
    have printing : occurrence.name ∉ builtinCalls →
        occurrence.name ∉ ["print", "println", "Error"] := by
      intro absent present
      exact absent (printing_builtinCalls present)
    constructor
    · rintro ⟨⟨notExtension, -, -⟩, ⟨_, -, impossible⟩ | ⟨unsealed, hidden, notBuiltin, none_⟩⟩
      · cases impossible
      · exact ⟨⟨unsealed, hidden⟩, notExtension, notBuiltin, none_⟩
    · rintro ⟨⟨unsealed, hidden⟩, notExtension, notBuiltin, none_⟩
      exact ⟨⟨notExtension, none_, printing notBuiltin⟩, .inr ⟨unsealed, hidden, notBuiltin, none_⟩⟩
  | variant owner undeclared =>
    rw [interpreter_variant undeclared, load_variant undeclared]
    constructor
    · rintro ⟨⟨notExtension, same⟩, ⟨other, sealed_, equal⟩ | ⟨unsealed, hidden, -⟩⟩
      · cases equal
        exact ⟨notExtension, same, .inl sealed_⟩
      · exact ⟨notExtension, same, .inr ⟨unsealed, hidden⟩⟩
    · rintro ⟨notExtension, same, sealed_ | ⟨unsealed, hidden⟩⟩
      · exact ⟨⟨notExtension, same⟩, .inl ⟨owner, sealed_, rfl⟩⟩
      · exact ⟨⟨notExtension, same⟩, .inr ⟨unsealed, hidden, same⟩⟩
  | builtin =>
    rw [interpreter_builtin, load_builtin]
    constructor
    · rintro ⟨-, ⟨_, -, impossible⟩ | ⟨unsealed, hidden, isBuiltin, undeclared, none_⟩⟩
      · cases impossible
      · exact ⟨⟨unsealed, hidden⟩, isBuiltin, undeclared, none_⟩
    · rintro ⟨⟨unsealed, hidden⟩, isBuiltin, undeclared, none_⟩
      refine ⟨?_, .inr ⟨unsealed, hidden, isBuiltin, undeclared, none_⟩⟩
      exact (builtinCalls_cases isBuiltin).imp_right fun printing => ⟨undeclared, none_, printing⟩
  | nothing => exact absurd rfl known

/-- An identifier that the checker accepts denotes the same in the checker, in the interpreter and
in the lowered code exactly when it is clear. -/
theorem denotes_same_iff_clear (tables : Tables) (host : Host) (left : List String)
    (occurrence : Occurrence) (known : checkerEntity tables occurrence ≠ .nothing) :
    (interpreterEntity tables occurrence = checkerEntity tables occurrence ∧
      mirEntity tables host left occurrence = checkerEntity tables occurrence) ↔
        Clear tables host left occurrence := by
  obtain ⟨name, position, scopes⟩ := occurrence
  cases position with
  | value type => exact read_agrees_iff nofun known found_identifier rfl rfl Iff.rfl
  | callee type result => exact read_agrees_iff nofun known found_callee rfl rfl Iff.rfl
  | owner type =>
    obtain ⟨depth, seen, here⟩ := bindingOnly_known known
    have checked : checkerEntity tables ⟨name, .owner type, scopes⟩ = .binding depth := here
    have loaded : loadEntity tables left scopes name = .binding depth := by
      unfold loadEntity
      rw [seen]
    have reads : (⟨name, .owner type, scopes⟩ : Occurrence).position ≠ .target := nofun
    unfold Clear
    rw [mir_eq_iff reads, checked, loaded]
    simp [interpreterEntity, here, ReadsBinding]
  | target =>
    obtain ⟨depth, -, here⟩ := bindingOnly_known known
    have checked : checkerEntity tables ⟨name, .target, scopes⟩ = .binding depth := here
    unfold Clear
    rw [checked]
    simp [interpreterEntity, mirEntity, here, ReadsBinding, Occurrence.sealed]

end Agreement

/-! ## The lanes evaluate what they denote -/

section Evaluation

variable {σ : Type}

def namesOf (scopes : List Scope) : List (List String) := scopes.map fun scope => scope.map fst

def cellAt (scopes : List Scope) (name : String) (depth : Nat) : Option Cell :=
  (scopes[depth]?).bind fun scope => scope.lookup name

theorem lookup_isSome_contains {α : Type} (entries : List (String × α)) (name : String) :
    (entries.lookup name).isSome = (entries.map fst).contains name := by
  induction entries with
  | nil => rfl
  | cons entry entries ih =>
    obtain ⟨key, item⟩ := entry
    rw [lookup_cons, map_cons, List.contains_cons]
    cases name == key with
    | true => rfl
    | false => rw [Bool.false_or, ← ih]

theorem resolve_eq_cellAt (scopes : List Scope) (name : String) :
    resolve scopes name = (visible name (namesOf scopes)).bind (cellAt scopes name) := by
  unfold resolve visible namesOf
  induction scopes with
  | nil => rfl
  | cons scope scopes ih =>
    rw [flatten_cons, lookup_append, ih, map_cons, List.findIdx?_cons, ← lookup_isSome_contains]
    cases found : scope.lookup name with
    | some cell => simp [cellAt, found]
    | none =>
      simp only [isSome_none, false_eq_true, if_false, none_or]
      cases List.findIdx? (fun names => names.contains name)
          (scopes.map fun scope => scope.map fst) with
      | none => rfl
      | some depth => simp [cellAt]

/-- The tables are those of a module and a runtime. -/
structure Describes (tables : Tables) (runtime : Runtime σ) (functions : List String)
    (imports : List (String × String)) : Prop where
  functions : tables.functions = functions
  imports : tables.imports = imports.map fst
  constructors : ∀ name, (tables.constructors name).isSome = (runtime.constructor name).isSome

/-- What an entity is at run time. -/
def entityValue (runtime : Runtime σ) (key : String) (imports : List (String × String))
    (cell : Nat → Option Cell) (closed : Option Cell) (name : String) : Entity → Option Value
  | .binding depth => (cell depth).map Cell.value
  | .closed _ => closed.map Cell.value
  | .function _ => some (.function key name)
  | .module _ => (imports.lookup name).map .module
  | .variant _ _ => runtime.constructor name
  | .builtin _ => some (.str name)
  | .nothing => none

variable {tables : Tables}

theorem any_name_eq_contains {α : Type} (nameOf : α → String) (items : List α) (name : String) :
    (items.any fun item => nameOf item == name) = (items.map nameOf).contains name := by
  rw [List.contains_eq_any_beq, List.any_map]
  congr 1
  funext item
  exact BEq.comm

theorem interpreterName_denotes (context : Context σ) (name : String) (state : State σ)
    (described : Describes tables context.runtime
      (context.module.functions.map FunctionDeclaration.name) context.module.imports) :
    context.interpreterName name state =
      match entityValue context.runtime context.module.key context.module.imports
        (cellAt state.scopes name) none name
        (interpreterIdentifier tables (namesOf state.scopes) name) with
      | some value => .ok value state
      | none => .raise (.fault ⟨"KS3101", "Tanımsız isim: '" ++ name ++ "'."⟩) state := by
  obtain ⟨functions, imports, constructors⟩ := described
  unfold Context.interpreterName interpreterIdentifier Context.isFunction
  rw [functions, imports, any_name_eq_contains FunctionDeclaration.name]
  split
  · rfl
  · split
    · rfl
    · have known := constructors name
      cases constructor : context.runtime.constructor name with
      | some value =>
        rw [constructor, isSome_some, isSome_iff_exists] at known
        obtain ⟨owner, found⟩ := known
        rw [found]
        simp only [entityValue, constructor]
        rfl
      | none =>
        rw [constructor, isSome_none, Option.isSome_eq_false_iff, isNone_iff_eq_none] at known
        rw [known]
        dsimp only
        split
        · rfl
        · rw [← lookup_isSome_contains]
          cases imported : context.module.imports.lookup name with
          | some key => simp [entityValue, imported]
          | none =>
            simp only [isSome_none, false_eq_true, if_false, readName, bindingOnly]
            rw [bind_apply, withState_apply, resolve_eq_cellAt]
            cases visible name (namesOf state.scopes) with
            | none => rfl
            | some depth =>
              rw [bind_some]
              cases found : cellAt state.scopes name depth with
              | none => simp [entityValue, found, fail, andThen]
              | some cell => simp [entityValue, found, andThen]

theorem loadName_denotes (machine : Mir.Machine σ) {module : Mir.MirModule} (name : String)
    (frame : Mir.Frame) (store : Store σ) {left : List String} {scopes : List (List String)}
    (found : machine.graph.moduleOf module.key = .ok module)
    (described : Describes tables machine.runtime (module.functions.map Mir.MirFunction.name)
      module.imports)
    (unseen : visible name scopes = none)
    (table : left.contains name = (frame.bindings name).isSome) :
    machine.loadName module.key name frame store =
      match entityValue machine.runtime module.key module.imports (fun _ => none)
        (frame.bindings name) name (loadEntity tables left scopes name) with
      | some value => .ok value store
      | none => .raise ⟨"KS3101", "Tanımsız MIR isim: '" ++ name ++ "'."⟩ store := by
  obtain ⟨functions, imports, constructors⟩ := described
  unfold Mir.Machine.loadName loadEntity
  rw [unseen, table, functions, imports]
  cases bound : frame.bindings name with
  | some cell => simp [entityValue]
  | none =>
    dsimp only
    rw [bind_apply, found]
    simp only [isSome_none, false_eq_true, if_false, lift, pure_apply, andThen]
    rw [any_name_eq_contains Mir.MirFunction.name]
    split
    · rfl
    · have known := constructors name
      cases constructor : machine.runtime.constructor name with
      | some value =>
        rw [constructor, isSome_some, isSome_iff_exists] at known
        obtain ⟨owner, isVariant⟩ := known
        rw [isVariant]
        simp only [entityValue, constructor]
        rfl
      | none =>
        rw [constructor, isSome_none, Option.isSome_eq_false_iff, isNone_iff_eq_none] at known
        rw [known]
        dsimp only
        unfold builtin
        split
        · rfl
        · rw [← lookup_isSome_contains]
          cases imported : module.imports.lookup name with
          | some key => simp [entityValue, imported]
          | none => rfl

/-- **Names that no scope has.** The interpreter finds for such a name what the executor loads,
and nothing where it loads nothing, exactly when no extension of the language has a builtin of the
name, or the executor has that builtin and nothing that comes before it. -/
theorem globalName_agrees_iff (context : Context σ) (machine : Mir.Machine σ)
    {module : Mir.MirModule} {name : String} {state : State σ} {frame : Mir.Frame} {store : Store σ}
    (found : machine.graph.moduleOf context.module.key = .ok module)
    (runtime : machine.runtime = context.runtime)
    (imports : module.imports = context.module.imports)
    (functions : (module.functions.any fun function => function.name == name) =
      context.isFunction name)
    (unseen : resolve state.scopes name = none) (unbound : frame.bindings name = none) :
    (∀ value, context.interpreterName name state = .ok value state ↔
        machine.loadName context.module.key name frame store = .ok value store) ↔
      (name ∈ extensionBuiltins → context.isFunction name = false ∧
        match context.runtime.constructor name with
        | some value => value = .str name
        | none => name ∈ builtinCalls) := by
  unfold Context.interpreterName Mir.Machine.loadName
  rw [unbound]
  simp only [bind_apply, found, lift, pure_apply, andThen, functions, runtime, imports, builtin,
    contains_iff_mem]
  by_cases extension : name ∈ extensionBuiltins
  · simp only [extension, if_true, pure_apply, forall_const]
    cases context.isFunction name with
    | true => simp
    | false =>
      cases context.runtime.constructor name with
      | some value =>
        have same : (∀ v, Value.str name = v ↔ value = v) ↔ value = .str name :=
          ⟨fun all => ((all value).mpr rfl).symm, fun same v => by rw [same]⟩
        simpa using same
      | none =>
        by_cases shared : name ∈ builtinCalls
        · simp [shared]
        · cases context.module.imports.lookup name <;> simp [shared]
  · have printed : ∀ name ∈ ["print", "println", "Error"], name ∈ builtinCalls := by decide
    have printing : name ∈ ["print", "println", "Error"] ↔ name ∈ builtinCalls :=
      ⟨printed name, fun known => (builtinCalls_cases known).resolve_left extension⟩
    simp only [extension, if_false, printing, false_implies, iff_true]
    intro value
    cases context.isFunction name with
    | true => simp
    | false =>
      cases context.runtime.constructor name with
      | some value => simp
      | none =>
        by_cases shared : name ∈ builtinCalls
        · simp [shared]
        · cases context.module.imports.lookup name <;>
            simp [shared, readName, bind_apply, unseen, fail, andThen]

/-- A module that imports `io`, in the interpreter and in the executor. -/
def importingContext : Context Output :=
  ⟨plainRuntime, ⟨fun _ _ _ => .error .typeError, fun _ _ _ => .error .typeError⟩, .interpreter,
    ⟨"m", []⟩, ⟨"m", "m", [("io", "std")], []⟩, fun _ _ _ => timeout⟩

def importingMachine : Mir.Machine Output :=
  ⟨plainRuntime, "m", [⟨"m", "m", [("io", "std")], []⟩]⟩

theorem globalName_agrees_import :
    importingContext.interpreterName "io" ⟨emptyStore, []⟩ = .ok (.module "std") ⟨emptyStore, []⟩ ∧
      importingMachine.loadName "m" "io" ⟨fun _ => none, fun _ => none⟩ emptyStore =
        .ok (.module "std") emptyStore := by
  have agrees := (@globalName_agrees_iff _ importingContext importingMachine _ "io" ⟨emptyStore, []⟩
    ⟨fun _ => none, fun _ => none⟩ emptyStore rfl rfl rfl rfl rfl rfl).mpr
      fun extension => absurd extension (by decide)
  exact ⟨rfl, (agrees _).mp rfl⟩

end Evaluation

/-! ## Every identifier of a module -/

/-- Every identifier of an accepted function denotes the same in the checker, in the interpreter
and in the lowered code, whatever bindings of closed scopes the table has, exactly when it is
clear. -/
theorem occurrences_denote_same_iff (host : Host) (tables : Tables)
    (function : FunctionDeclaration)
    (accepted : ∀ occurrence ∈ functionOccurrences function,
      checkerEntity tables occurrence ≠ .nothing) :
    ∀ occurrence ∈ functionOccurrences function, ∀ left : List String,
      (interpreterEntity tables occurrence = checkerEntity tables occurrence ∧
        mirEntity tables host left occurrence = checkerEntity tables occurrence) ↔
          Clear tables host left occurrence := by
  intro occurrence member left
  exact denotes_same_iff_clear tables host left occurrence (accepted occurrence member)

/-- `fn main() -> Int { let name = 1  return name }`. -/
def returnsLocal (name : String) : FunctionDeclaration where
  name := "main"
  typeParameters := []
  parameters := []
  returnNames := some ["Int"]
  returnType := .named "Int"
  body := [.letIn name false (.literal (.int 1) (.named "Int")),
    .ret (some (.ident name (.named "Int")))]

/-- A module with a function `f` besides `main`. -/
def twoFunctions : Tables := tablesOf ["f", "main"] [] [] [] []

/-- The identifier that `returnsLocal` returns. -/
def returned (name : String) : Occurrence := ⟨name, .value (.named "Int"), [[name]]⟩

/-- A local with a name of its own is the same binding everywhere. -/
theorem ownName_denotes_same : functionOccurrences (returnsLocal "g") = [returned "g"] ∧
      interpreterEntity twoFunctions (returned "g") = checkerEntity twoFunctions (returned "g") ∧
        mirEntity twoFunctions integerHost [] (returned "g") =
          checkerEntity twoFunctions (returned "g") := by
  have accepted : ∀ occurrence ∈ functionOccurrences (returnsLocal "g"),
      checkerEntity twoFunctions occurrence ≠ .nothing := by
    intro occurrence member
    rw [mem_singleton.mp member]
    decide
  have clear : Clear twoFunctions integerHost [] (returned "g") :=
    ⟨by decide, by decide, by decide, by decide, by decide, by decide⟩
  exact ⟨rfl, (occurrences_denote_same_iff integerHost twoFunctions (returnsLocal "g") accepted
    (returned "g") (mem_singleton.mpr rfl) []).mpr clear⟩

/-- A local with the name of a function is the function in the interpreter and the local in the
checker and in the lowered code. -/
theorem functionName_denotes_differently : functionOccurrences (returnsLocal "f") = [returned "f"] ∧
      checkerEntity twoFunctions (returned "f") = .binding 0 ∧
        mirEntity twoFunctions integerHost [] (returned "f") = .binding 0 ∧
          interpreterEntity twoFunctions (returned "f") = .function "f" := by
  exact ⟨rfl, by decide, by decide, by decide⟩

end Koschei.Names
