import Koschei.Ast.Syntax
import Koschei.Mir.Executor

/-!
# The tree-walking interpreter, and the tree meaning of lowered code

The interpreter evaluates a checked tree over a stack of scopes; `return`,
`break` and `continue` are signals that unwind it. Loops and calls are bounded by
fuel: `meaning` gives what can be computed with a given amount, one step at a
time (`exprStep`, `stmtStep`, `whileStep`).

Lowered code does not do the same everywhere. Where it differs, both ways of
doing the step are written here, side by side, with a condition on the state
before the step under which they are the same, and a `Lane` says which one is
taken. `Lane.interpreter` always takes the first and is the interpreter of the
source. `Lane.lowered` always takes the second: what the lowered code does, told
on the tree. `Lane.careful` takes the step when the condition holds and says
nothing otherwise; a run it completes is a run of both. For the forms that
evaluate several parts, what the two ways have in common is written as a third
way, with a condition wherever they could part.
-/

namespace Koschei.Ast

open Lib

variable {σ α : Type}

/-! ## Signals, scopes and lanes -/

/-- What unwinds an evaluation. -/
inductive Signal where
  | fault (fault : Fault)
  | ret (value : Value)
  | brk
  | cont
  deriving BEq

/-- One scope: its bindings, the latest first. -/
abbrev Scope := List (String × Cell)

/-- What an evaluation changes: the store and the scopes, the innermost first. -/
structure State (σ : Type) where
  store : Store σ
  scopes : List Scope

abbrev Eval (σ α : Type) := Comp Signal (State σ) α

/-- Run a computation of the shared runtime. -/
def exec (computation : Exec σ α) : Eval σ α := fun state =>
  match computation state.store with
  | .ok a store => .ok a { state with store := store }
  | .raise fault store => .raise (.fault fault) { state with store := store }
  | .timeout => .timeout

/-- Stop with a runtime fault. -/
def fail (fault : Fault) : Eval σ α := raise (.fault fault)

/-- Which of two ways a step is taken, given the condition under which they are the same, or
what they have in common; and what a caller sees of a call that failed. -/
structure Lane (σ : Type) where
  choose : {α : Type} → (State σ → Prop) → Eval σ α → Eval σ α → Eval σ α
  split : {α : Type} → Eval σ α → Eval σ α → Eval σ α → Eval σ α
  callFault : Fault → Exec σ Value

namespace Lane

def interpreter : Lane σ where
  choose _ first _ := first
  split first _ _ := first
  callFault fault := raise fault

/-- The lowered code. Of a failed call nothing is said. -/
def lowered : Lane σ where
  choose _ _ second := second
  split _ second _ := second
  callFault _ := timeout

open Classical in
/-- The steps that meet their condition. -/
noncomputable def careful : Lane σ where
  choose safe first _ := fun state => if safe state then first state else .timeout
  split _ _ common := common
  callFault _ := timeout

/-- A condition on the way. -/
def require (lane : Lane σ) (safe : State σ → Prop) : Eval σ Unit :=
  lane.choose safe (pure ()) (pure ())

/-- Two operations of the runtime on the same operands, where they have the same outcome. -/
def alike (lane : Lane σ) (first second : Exec σ α) : Eval σ α :=
  lane.choose (fun state => first state.store = second state.store) (exec first) (exec second)

end Lane

/-- Run a computation of the shared runtime, and say nothing where it fails. -/
def quietly (computation : Exec σ α) : Eval σ α := fun state =>
  match computation state.store with
  | .ok a store => .ok a { state with store := store }
  | _ => .timeout

/-- `define`. -/
def bindName (name : String) (cell : Cell) : List Scope → List Scope
  | scope :: scopes => ((name, cell) :: scope) :: scopes
  | [] => [[(name, cell)]]

/-- The cell a name denotes: the innermost scope that has it, its latest binding there. -/
def resolve (scopes : List Scope) (name : String) : Option Cell := scopes.flatten.lookup name

/-- Overwrite the first binding of a name in a scope. -/
def updateScope (name : String) (value : Value) : Scope → Option Scope
  | [] => none
  | (other, cell) :: rest =>
    if name == other then some ((other, ⟨value, cell.isMutable⟩) :: rest)
    else (updateScope name value rest).map ((other, cell) :: ·)

/-- Overwrite the cell a name denotes. -/
def updateScopes (name : String) (value : Value) : List Scope → Option (List Scope)
  | [] => none
  | scope :: scopes =>
    match updateScope name value scope with
    | some scope' => some (scope' :: scopes)
    | none => (updateScopes name value scopes).map (scope :: ·)

/-- Bind a name in the innermost scope. -/
def define (name : String) (cell : Cell) : Eval σ Unit :=
  Comp.modify fun state => { state with scopes := bindName name cell state.scopes }

def readName (name : String) : Eval σ Cell := withState fun state =>
    match resolve state.scopes name with
    | some cell => pure cell
    | none => fail ⟨"KS3101", "Tanımsız isim: '" ++ name ++ "'."⟩

/-- `_Environment.assign`. -/
def assignName (name : String) (value : Value) : Eval σ Value := do
  let cell ← readName name
  if cell.isMutable then do
    Comp.modify fun state =>
      { state with scopes := (updateScopes name value state.scopes).getD state.scopes }
    pure value
  else fail ⟨"KS3201", "'" ++ name ++ "' immutable bir değerdir; runtime ataması reddedildi."⟩

/-- Evaluate in a scope of its own, which is left on every way out. -/
def inScope (body : Eval σ α) : Eval σ α := fun state =>
  Comp.finallyDo body (fun state => { state with scopes := state.scopes.tail })
    { state with scopes := [] :: state.scopes }

/-! ## The interpreter's own operations -/

/-- An integer literal out of range becomes an Error. -/
def interpreterLiteral : Value → Value
  | .int i =>
    if intMin ≤ i ∧ i ≤ intMax then .int i
    else .error ("KS3501: Int literal çalışma anında 64-bit aralığı aştı: " ++ toString i)
  | value => value

/-- `_int_overflow`. -/
def intOverflow (operation : String) : Value := .error ("KS3501: Int taşması: '" ++ operation ++
    "' işlemi işaretli 64-bit aralığın dışına çıktı.")

/-- `left + right`, `left - right` and `left * right`, as `_binary` of the runtime
alignment computes them. -/
def interpreterArith (runtime : Runtime σ) (op : ArithOp) (text : String) (left right : Value) :
    Exec σ Value :=
  match left, right with
  | .int i, .int j =>
    let result := match op with
      | .add => i + j
      | .sub => i - j
      | _ => i * j
    if intMin ≤ result ∧ result ≤ intMax then pure (.int result)
    else pure (intOverflow text)
  | left, right => lift (runtime.host.arithValue op left right)

/-- A binary operator on two operands that are no Errors. -/
def interpreterStrict (runtime : Runtime σ) (operator : BinaryOperator) (left right : Value) :
    Exec σ Value :=
  match operator with
  | .add => interpreterArith runtime .add "+" left right
  | .sub => interpreterArith runtime .sub "-" left right
  | .mul => interpreterArith runtime .mul "*" left right
  | .div => do
    if ← askLift fun host => runtime.equal host right (.int 0) then
      pure (.error "Sıfıra bölme")
    else
      match left, right with
      | .int i, .int j =>
        if i = intMin ∧ j = -1 then pure (intOverflow "/")
        else pure (.int (Mir.truncatedQuotient i j))
      | left, right => lift (runtime.host.arithValue .div left right)
  | .rem =>
    match left, right with
    | .int i, .int j =>
      if j = 0 then pure (.error "Sıfıra bölme")
      else if i = intMin ∧ j = -1 then pure (intOverflow "%")
      else pure (.int (i - Mir.truncatedQuotient i j * j))
    | _, _ => pure (.error "KS1301: '%' yalnızca Int % Int kabul eder")
  | .eq => do pure (.bool (← askLift fun host => runtime.equal host left right))
  | .ne => do pure (.bool (!(← askLift fun host => runtime.equal host left right)))
  | .lt => do pure (.bool (← askLift fun host => runtime.compare host .lt left right))
  | .le => do pure (.bool (← askLift fun host => runtime.compare host .le left right))
  | .gt => do pure (.bool (← askLift fun host => runtime.compare host .gt left right))
  | .ge => do pure (.bool (← askLift fun host => runtime.compare host .ge left right))
  | .and | .or => raise ⟨"AssertionError", operator.text⟩

def interpreterUnary (runtime : Runtime σ) (operator : UnaryOperator) (operand : Value) :
    Exec σ Value :=
  match operand with
  | .error message => pure (.error message)
  | operand =>
    match operator with
    | .not => pure (.bool (!runtime.host.truthy operand))
    | .neg =>
      match operand with
      | .int i => if i = intMin then pure (intOverflow "unary -") else pure (.int (-i))
      | operand => lift (runtime.host.negateValue operand)

/-- What unary minus does with a literal before it evaluates anything. -/
def negatedLiteral : Expr → Option Value
  | .literal (.int magnitude) _ =>
    if magnitude = intMinMagnitude then some (.int intMin)
    else if magnitude > intMax then some (intOverflow "unary -")
    else none
  | _ => none

/-- The sealed construction of a variant, with the first of the values as its payload. -/
def sealVariant (runtime : Runtime σ) (canonical : String) (type : TypeNode)
    (values : List Value) : Exec σ Value := do
  let contract ← lift (Mir.constructContract canonical type)
  match values with
  | payload :: _ => Mir.constructWith runtime contract payload
  | [] => pure (.enum contract.1 contract.2.1 none contract.2.2)

/-- The builtin names the language extensions answer before anything else is looked up. -/
def extensionBuiltins : List String :=
  ["parse_json", "encode_json", "bounded_queue", "queue_try_send", "queue_try_recv",
    "queue_len", "queue_capacity", "parallel_map", "decimal", "decimal_add", "decimal_sub",
    "decimal_cmp", "decimal_text", "task_scope", "task_spawn", "task_join_all",
    "task_pending", "task_capacity", "task_closed", "task_cancel", "task_cancel_all"]

/-- What the runtime infers about type arguments: the names the parameters and the result
of a generic call have to match, and the type arguments of a generic struct. -/
structure Inference (σ : Type) where
  callContract : FunctionDeclaration → List Value → σ →
    Except Fault (List (List String) × Option (List String))
  structContract : StructDeclaration → List (String × Value) → σ → Except Fault (List String)

/-- Where an evaluation takes place. -/
structure Context (σ : Type) where
  runtime : Runtime σ
  inference : Inference σ
  lane : Lane σ
  program : Program
  module : Module
  call : Caller σ

namespace Context

variable (context : Context σ)

/-- Whether a name is a function of the module. -/
def isFunction (name : String) : Bool :=
  context.module.functions.any fun function => function.name == name

/-- Whether a name means something in every scope: a language extension, a function of the
module, a constructor, a builtin or an import. -/
def isGlobal (name : String) : Bool := extensionBuiltins.contains name || context.isFunction name ||
    (context.runtime.constructor name).isSome || (builtin name).isSome ||
    (context.module.imports.lookup name).isSome

/-- Evaluation of an identifier: everything global comes before the scopes. -/
def interpreterName (name : String) : Eval σ Value :=
  if extensionBuiltins.contains name then pure (.str name)
  else if context.isFunction name then pure (.function context.module.key name)
  else
    match context.runtime.constructor name with
    | some constructor => pure constructor
    | none =>
      if ["print", "println", "Error"].contains name then pure (.str name)
      else
        match context.module.imports.lookup name with
        | some key => pure (.module key)
        | none => do pure (← readName name).value

/-- What the lowered code loads: a visible binding comes first. -/
def loweredName (name : String) : Eval σ Value := withState fun state =>
    match resolve state.scopes name with
    | some cell => pure cell.value
    | none =>
      if context.isFunction name then pure (.function context.module.key name)
      else
        match context.runtime.constructor name with
        | some constructor => pure constructor
        | none =>
          match builtin name with
          | some builtin => pure builtin
          | none =>
            match context.module.imports.lookup name with
            | some key => pure (.module key)
            | none => fail ⟨"KS3101", "Tanımsız MIR isim: '" ++ name ++ "'."⟩

/-- The identity under which an identifier or a call of one constructs a variant. -/
def constructs (name : String) (type : TypeNode) : Option String :=
  if variantName context.runtime.host name then constructIdentity type name else none

/-- What the lowered code does for an identifier. -/
def loweredIdent (name : String) (type : TypeNode) : Eval σ Value :=
  match context.constructs name type with
  | some canonical => exec (sealVariant context.runtime canonical type [])
  | none => context.loweredName name

/-- The names both lanes resolve alike: a binding that is in sight is not named like anything
global, and a name without one is a global name. -/
def NameSafe (name : String) (type : TypeNode) (state : State σ) : Prop :=
  context.constructs name type = none ∧ match resolve state.scopes name with
    | some _ => context.isGlobal name = false
    | none => context.isGlobal name = true ∧
        (extensionBuiltins.contains name = true → (builtin name).isSome = true ∧
          context.isFunction name = false ∧ context.runtime.constructor name = none)

/-- A member that is read off a module is one of its functions. -/
def MemberSafe (receiver : Value) (name : String) : Prop :=
  ∀ key, receiver = .module key → ∃ found, context.program.moduleFunction key name = .ok found

/-- `_member`: a module hands out its functions. -/
def interpreterMember (receiver : Value) (name : String) : Exec σ Value := match receiver with
  | .module key =>
    match context.program.moduleFunction key name with
    | .ok _ => pure (.function key name)
    | .error _ => raise ⟨"KS3101",
        "'" ++ key ++ "' modülünde '" ++ name ++ "' adında bir fonksiyon yok."⟩
  | receiver => askLift fun host => context.runtime.member host receiver name

end Context

/-! ## Evaluation step by step -/

/-- What is computed with some fuel. -/
structure Meaning (σ : Type) where
  expr : Expr → Eval σ Value
  stmt : Stmt → Eval σ Value
  whileLoop : Expr → List Stmt → Value → Eval σ Value

section Step

variable (context : Context σ) (m : Meaning σ)

/-- Evaluate expressions from left to right. -/
def evaluateAll : List Expr → Eval σ (List Value)
  | [] => pure []
  | expression :: rest => do
    let value ← m.expr expression
    let values ← evaluateAll rest
    pure (value :: values)

/-- `_execute_block` without a scope: the value of the last statement. -/
def executeStatements : List Stmt → Value → Eval σ Value
  | [], result => pure result
  | statement :: rest, _ => do
    let result ← m.stmt statement
    executeStatements rest result

/-- `_execute_block`. -/
def executeBlock (statements : List Stmt) : Eval σ Value :=
  inScope (executeStatements m statements .unit)

/-! ### Interpolation and container literals -/

/-- Each part is rendered as soon as it is evaluated. -/
def interpreterParts : List Expr → Eval σ String
  | [] => pure ""
  | part :: rest => do
    let value ← m.expr part
    let text ← exec (askLift fun host => context.runtime.toText host value)
    let texts ← interpreterParts rest
    pure (text ++ texts)

/-- The texts of values that are all evaluated. -/
def renderAll : List Value → Exec σ String
  | [] => pure ""
  | value :: values => do
    let text ← askLift fun host => context.runtime.toText host value
    let texts ← renderAll values
    pure (text ++ texts)

/-- The texts of parts that keep their text while the later parts are evaluated. -/
def commonParts : List Expr → Eval σ String
  | [] => pure ""
  | part :: rest => do
    let value ← m.expr part
    let text ← quietly (askLift fun host => context.runtime.toText host value)
    let texts ← commonParts rest
    context.lane.require fun state => context.runtime.toText state.store.host value = .ok text
    pure (text ++ texts)

/-- A List literal stops at the first Error. -/
def interpreterList : List Expr → List Value → Eval σ Value
  | [], items => pure (.list items)
  | item :: rest, items => do
    let value ← m.expr item
    if value.isError then pure value
    else if ← exec (ask fun host => context.runtime.containsCapability host value) then
      fail ⟨"KS3401", "Capability taşıyan değerler List içine konamaz; runtime " ++
        "type-laundering girişimini reddetti."⟩
    else interpreterList rest (items ++ [value])

/-- Lowered, a List literal evaluates every element and keeps it. -/
def loweredList (items : List Expr) (type : TypeNode) : Eval σ Value := match type.listItem with
  | some _ => do
    let values ← evaluateAll m items
    exec (Mir.makeList context.runtime values)
  | none => fail ⟨"KS5002", "MIR executor AST fallback çalıştırmaz: ListLiteral"⟩

/-- The elements of a List literal without Errors and capabilities. -/
def commonList : List Expr → List Value → Eval σ Value
  | [], items => do
    context.lane.require fun state => ∀ item ∈ items,
      context.runtime.containsCapability state.store.host item = false
    pure (.list items)
  | item :: rest, items => do
    let value ← m.expr item
    context.lane.require fun state => value.isError = false ∧
      context.runtime.containsCapability state.store.host value = false
    commonList rest (items ++ [value])

/-- A Map literal checks its key before it evaluates the item. -/
def interpreterMap : List (Expr × Expr) → List (String × Value) → Eval σ Value
  | [], entries => pure (.map entries)
  | (keyExpression, valueExpression) :: rest, entries => do
    let key ← m.expr keyExpression
    match key with
    | .error message => pure (.error message)
    | .str text =>
      if entries.any fun entry => entry.1 == text then
        fail ⟨"KS3101", "Map literalinde '" ++ text ++ "' anahtarı birden fazla yazılmış."⟩
      else do
        let value ← m.expr valueExpression
        if value.isError then pure value
        else if ← exec (ask fun host => context.runtime.containsCapability host value) then
          fail ⟨"KS3401", "Capability taşıyan değerler Map içine konamaz; runtime " ++
            "type-laundering girişimini reddetti."⟩
        else interpreterMap rest (entries ++ [(text, value)])
    | key => do
      let name ← exec (ask fun host => context.runtime.runtimeTypeName host key)
      fail ⟨"KS3401", "Map anahtarı String olmalıdır, " ++ name ++ " bulundu."⟩

/-- Lowered, a Map literal evaluates key and item and then inserts. -/
def loweredMap : List (Expr × Expr) → List (String × Value) → Eval σ Value
  | [], entries => pure (.map entries)
  | (keyExpression, valueExpression) :: rest, entries => do
    let key ← m.expr keyExpression
    if key.isError then pure key
    else do
      let value ← m.expr valueExpression
      if value.isError then pure value
      else do
        let entries' ← exec (askLift fun host =>
          Mir.insertEntry context.runtime host entries key value)
        loweredMap rest entries'

/-- The entries of a Map literal with new text keys and without capabilities. An Error is the
value of the literal. -/
def commonMap : List (Expr × Expr) → List (String × Value) → Eval σ Value
  | [], entries => pure (.map entries)
  | (keyExpression, valueExpression) :: rest, entries => do
    let key ← m.expr keyExpression
    match key with
    | .error message => pure (.error message)
    | .str text => do
      context.lane.require fun _ => (entries.any fun entry => entry.1 == text) = false
      let value ← m.expr valueExpression
      if value.isError then pure value
      else do
        context.lane.require fun state =>
          context.runtime.containsCapability state.store.host value = false
        commonMap rest (entries ++ [(text, value)])
    | _ => timeout

/-- Assign a field of a struct under construction; a later value replaces an earlier one
in its place. -/
def setPlainField (fields : List (String × Value)) (name : String) (value : Value) :
    List (String × Value) := Mir.replaceEntry fields name value

/-- The fields of a literal of a struct without type parameters. -/
def interpreterFields (typeName : String) (declaration : Option StructDeclaration) :
    List (String × Expr) → List (String × Value) → Eval σ Value
  | [], fields => exec (onHost (context.runtime.newStruct typeName fields []))
  | (name, expression) :: rest, fields => do
    let value ← m.expr expression
    if value.isError then pure value
    else
      let field := declaration.bind fun declaration =>
        declaration.fields.reverse.find? fun field => field.name == name
      match field with
      | none => interpreterFields typeName declaration rest (setPlainField fields name value)
      | some field => do
        let matched ← exec (ask fun host =>
          context.runtime.matchesType host value field.names [] (some []))
        if matched.1 then
          interpreterFields typeName declaration rest (setPlainField fields name value)
        else do
          let actual ← exec (ask fun host => context.runtime.runtimeTypeName host value)
          fail ⟨"KS3401", "'" ++ typeName ++ "." ++ name ++ "' alanı " ++
            " or ".intercalate field.names ++ " beklerken " ++ actual ++ " aldı."⟩

/-- `_evaluate_generic_struct`. -/
def interpreterGenericFields (declaration : StructDeclaration) :
    List (String × Expr) → List (String × Value) → Eval σ Value
  | [], fields =>
    let missing := (declaration.fields.map StructField.name).filter fun name =>
      !fields.any fun entry => entry.1 == name
    if missing.isEmpty then do
      let arguments ← exec (askLift (context.inference.structContract declaration fields))
      exec (onHost (context.runtime.newStruct declaration.name fields arguments))
    else fail ⟨"KS3101", "'" ++ declaration.name ++ "' literalinde eksik alanlar: " ++
      ", ".intercalate missing ++ "."⟩
  | (name, expression) :: rest, fields =>
    if fields.any fun entry => entry.1 == name then
      fail ⟨"KS3101", "'" ++ declaration.name ++ "' literalinde '" ++ name ++
        "' alanı birden fazla yazılmış."⟩
    else if !declaration.fields.any fun field => field.name == name then
      fail ⟨"KS3101", "'" ++ declaration.name ++ "' struct'ında '" ++ name ++ "' alanı yok."⟩
    else do
      let value ← m.expr expression
      if value.isError then pure value
      else interpreterGenericFields declaration rest (fields ++ [(name, value)])

/-- A struct literal. -/
def interpreterStruct (typeName : String) (fields : List (String × Expr)) : Eval σ Value :=
  match context.runtime.structs typeName with
  | some declaration =>
    if declaration.typeParameters.isEmpty then
      interpreterFields context m typeName (some declaration) fields []
    else interpreterGenericFields context m declaration fields []
  | none => interpreterFields context m typeName none fields []

/-- The fields of a lowered struct literal, set on a builder one after the other. -/
def loweredFields (declaration : StructDeclaration) (required : List String)
    (concrete : List TypeNode) : List (String × Expr) → List (String × Value) → Eval σ Value
  | [], fields => do
    let ordered ← exec (lift (Mir.finishFields declaration required fields))
    exec (onHost (context.runtime.newStruct declaration.name ordered
      (concrete.map TypeNode.render)))
  | (name, expression) :: rest, fields => do
    let value ← m.expr expression
    if value.isError then pure value
    else do
      let fields' ← exec (askLift fun host => Mir.setField context.runtime host declaration
        required concrete fields name value)
      loweredFields declaration required concrete rest fields'

/-- Lowered, a struct literal starts with a builder for the checked type. -/
def loweredStruct (typeName : String) (fields : List (String × Expr)) (required : List String)
    (type : TypeNode) : Eval σ Value := do
  let (declaration, concrete) ←
    exec (lift (Mir.builderContract context.runtime typeName required type))
  loweredFields context m declaration required concrete fields []

/-- A value both lanes admit for a field: the builder takes it, and it matches the names
written in the declaration of a struct without type parameters. -/
def FieldSafe (declaration : StructDeclaration) (required : List String)
    (concrete : List TypeNode) (fields : List (String × Value)) (name : String) (value : Value)
    (state : State σ) : Prop :=
  Mir.setField context.runtime state.store.host declaration required concrete fields name value =
      .ok (fields ++ [(name, value)]) ∧
    (declaration.typeParameters.isEmpty = true → ∀ field,
      (declaration.fields.reverse.find? fun field => field.name == name) = some field →
        (context.runtime.matchesType state.store.host value field.names [] (some [])).1 = true)

/-- The fields of a finished literal: all of them, in the order of the declaration, and the
inferred type arguments are the checked ones. -/
def FinishSafe (declaration : StructDeclaration) (required : List String)
    (concrete : List TypeNode) (fields : List (String × Value)) (state : State σ) : Prop :=
  Mir.finishFields declaration required fields = .ok fields ∧
    if declaration.typeParameters.isEmpty then concrete = []
    else ((declaration.fields.map StructField.name).all fun name =>
        fields.any fun entry => entry.1 == name) = true ∧
      context.inference.structContract declaration fields state.store.host =
        .ok (concrete.map TypeNode.render)

/-- The fields of a struct literal that both lanes admit. An Error is the value of the
literal. -/
def commonFields (declaration : StructDeclaration) (required : List String)
    (concrete : List TypeNode) : List (String × Expr) → List (String × Value) → Eval σ Value
  | [], fields => do
    context.lane.require (FinishSafe context declaration required concrete fields)
    exec (onHost (context.runtime.newStruct declaration.name fields
      (concrete.map TypeNode.render)))
  | (name, expression) :: rest, fields => do
    context.lane.require fun _ => (fields.any fun entry => entry.1 == name) = false ∧
      (declaration.fields.any fun field => field.name == name) = true
    let value ← m.expr expression
    if value.isError then pure value
    else do
      context.lane.require
        (FieldSafe context declaration required concrete fields name value)
      commonFields declaration required concrete rest (fields ++ [(name, value)])

/-- A struct literal of a declared type with the checked type arguments. -/
def commonStruct (typeName : String) (fields : List (String × Expr)) (required : List String)
    (type : TypeNode) : Eval σ Value :=
  match Mir.builderContract context.runtime typeName required type with
  | .error _ => timeout
  | .ok (declaration, concrete) => do
    context.lane.require fun _ => declaration.name = typeName
    commonFields context m declaration required concrete fields []

/-! ### Calls and assignments -/

/-- How the lowered code treats a call. -/
inductive CallForm where
  | plain
  | construct (name : String)
  | capability (object : Expr) (name capabilityType method canonicalEffect powerDomain : String)
  | mapMethod (object : Expr) (name method : String)

/-- The form of a call: constructors first, then the checker's resolutions. -/
def callForm (host : Host) (callee : Expr) (resolution : CallResolution) : CallForm :=
  match callee with
  | .ident name _ => if variantName host name then .construct name else .plain
  | .member object name _ =>
    match resolution with
    | .capability capabilityType method canonicalEffect powerDomain =>
      .capability object name capabilityType method canonicalEffect powerDomain
    | .mapMethod method => .mapMethod object name method
    | .plain => .plain
  | _ => .plain

/-- An ordinary call: callee, arguments, invocation. -/
def plainCall (callee : Expr) (arguments : List Expr) : Eval σ Value := do
  let function ← m.expr callee
  let values ← evaluateAll m arguments
  exec (invoke context.runtime context.call function values)

/-- A Map method by its sealed instruction. -/
def mapMethodValue (runtime : Runtime σ) (method : String) (receiver : Value)
    (arguments : List Value) : Exec σ Value :=
  match method, arguments with
  | "get", [key] => Mir.mapGet receiver key
  | "set", [key, item] => Mir.mapSet runtime receiver key item
  | "keys", [] => Mir.mapKeys receiver
  | "contains", [key] => Mir.mapContains receiver key
  | _, _ => raise .typeError

/-- Lowered, a constructor call seals its identity. Without one, the argument has been
lowered already when the call falls back to an ordinary one, and is evaluated twice. -/
def loweredConstruct (name : String) (callee : Expr) (arguments : List Expr)
    (type : TypeNode) : Eval σ Value := do
  let values ← evaluateAll m arguments
  match constructIdentity type name with
  | none => plainCall context m callee arguments
  | some canonical => exec (sealVariant context.runtime canonical type values)

/-- A call of a constructor: its name, arguments, invocation. -/
def constructorCall (name : String) (arguments : List Expr) : Eval σ Value := do
  let function ← context.interpreterName name
  let values ← evaluateAll m arguments
  exec (invoke context.runtime context.call function values)

/-- A call of a member: receiver, member, arguments, invocation. -/
def memberCall (object : Expr) (name : String) (arguments : List Expr) : Eval σ Value := do
  let receiver ← m.expr object
  let function ← exec (context.interpreterMember receiver name)
  let values ← evaluateAll m arguments
  exec (invoke context.runtime context.call function values)

/-- A call of a constructor value that builds what the sealed construction builds. -/
def commonConstruct (name : String) (arguments : List Expr) (type : TypeNode) : Eval σ Value :=
  match constructIdentity type name with
  | none => timeout
  | some canonical => withState fun state =>
    match context.interpreterName name state with
    | .ok function state' => do
      context.lane.require fun _ => state' = state
      let values ← evaluateAll m arguments
      context.lane.alike (invoke context.runtime context.call function values)
        (sealVariant context.runtime canonical type values)
    | _ => timeout

/-- A call of a member whose invocation is the sealed operation on the receiver. -/
def commonMember (object : Expr) (name : String) (arguments : List Expr)
    (operation : Value → List Value → Exec σ Value) : Eval σ Value := do
  let receiver ← m.expr object
  let function ← quietly (askLift fun host =>
    match receiver with
    | .module _ => .error .typeError
    | receiver => context.runtime.member host receiver name)
  let values ← evaluateAll m arguments
  context.lane.alike (invoke context.runtime context.call function values)
    (operation receiver values)

/-- Evaluation of a call. -/
def callStep (callee : Expr) (arguments : List Expr) (resolution : CallResolution)
    (type : TypeNode) : Eval σ Value :=
  match callForm context.runtime.host callee resolution with
  | .plain => plainCall context m callee arguments
  | .construct name =>
    context.lane.split (constructorCall context m name arguments)
      (loweredConstruct context m name callee arguments type)
      (commonConstruct context m name arguments type)
  | .capability object name capabilityType method canonicalEffect powerDomain =>
    let operation receiver values := Mir.invokeCapability context.runtime context.call receiver
      values capabilityType method canonicalEffect powerDomain
    context.lane.split (memberCall context m object name arguments)
      (do
        let receiver ← m.expr object
        let values ← evaluateAll m arguments
        exec (operation receiver values))
      (commonMember context m object name arguments operation)
  | .mapMethod object name method =>
    context.lane.split (memberCall context m object name arguments)
      (do
        let receiver ← m.expr object
        let values ← evaluateAll m arguments
        exec (mapMethodValue context.runtime method receiver values))
      (commonMember context m object name arguments (mapMethodValue context.runtime method))

def interpreterAssignField (object field : String) (value : Expr) : Eval σ Value := do
  let cell ← readName object
  if !cell.isMutable then fail ⟨"KS3201", "'" ++ object ++ "' immutable; 'let mut' gerekir."⟩
  else do
    let parts ← exec (ask fun host => context.runtime.structParts host cell.value)
    match parts with
    | none => fail ⟨"KS3201", "Alan atamasının hedefi struct olmalıdır."⟩
    | some (typeName, fields, _) =>
      if !fields.any fun entry => entry.1 == field then
        fail ⟨"KS3101", "'" ++ typeName ++ "' struct'ında '" ++ field ++ "' alanı yok."⟩
      else do
        let result ← m.expr value
        -- The cell is read again: the value may have assigned the variable.
        let cell ← readName object
        let parts ← exec (ask fun host => context.runtime.structParts host cell.value)
        match parts with
        | none => fail .attributeError
        | some (typeName, _, _) => do
          let declared := (context.runtime.structs typeName).bind fun declaration =>
            declaration.fields.find? fun other => other.name == field
          let admitted ← match declared with
            | none => pure true
            | some other => do
              let matched ← exec (ask fun host =>
                context.runtime.matchesType host result other.names [] none)
              pure matched.1
          if admitted then do
            exec (onHost fun host =>
              ((), context.runtime.writeField cell.value field result host))
            pure result
          else fail ⟨"KS3106", "'" ++ typeName ++ "." ++ field ++ "' alan ataması"⟩

/-- A field assignment both lanes admit: the receiver has the declared field, and the value
carries no capability and matches the declared names in both. -/
def AssignSafe (receiver : Value) (field : String) (value : Value) (state : State σ) : Prop :=
  ∃ typeName fields arguments declaration declared,
    context.runtime.structParts state.store.host receiver = some (typeName, fields, arguments) ∧
    context.runtime.structs typeName = some declaration ∧
    (declaration.fields.find? fun other => other.name == field) = some declared ∧
    (fields.any fun entry => entry.1 == field) = true ∧
    context.runtime.containsCapability state.store.host value = false ∧
    arguments.length = declaration.typeParameters.length ∧
    (context.runtime.matchesType state.store.host value declared.names [] none).1 = true ∧
    (context.runtime.matchesType state.store.host value declared.names
      declaration.typeParameters (if declaration.typeParameters.isEmpty then none
        else some (declaration.typeParameters.zip arguments))).1 = true

/-- An assignment to a field of a mutable variable that the value does not assign. -/
def commonAssignField (object : String) (objectType : TypeNode) (field : String)
    (value : Expr) : Eval σ Value :=
  withState fun before =>
    match resolve before.scopes object with
    | none => timeout
    | some cell => do
      context.lane.require fun state => cell.isMutable = true ∧
        context.NameSafe object objectType state ∧
        ∃ typeName fields arguments, context.runtime.structParts state.store.host cell.value =
            some (typeName, fields, arguments) ∧
          (fields.any fun entry => entry.1 == field) = true
      let result ← m.expr value
      context.lane.require fun state => resolve state.scopes object = some cell ∧
        AssignSafe context cell.value field result state
      exec (onHost fun host => ((), context.runtime.writeField cell.value field result host))
      pure result

/-! ### Operators -/

/-- `&&` and `||`. The interpreter hands out a Bool; the lowered code hands out the operand
that decided. -/
def shortCircuit (conjunction : Bool) (left right : Expr) : Eval σ Value := do
  let leftValue ← m.expr left
  if leftValue.isError then pure leftValue
  else if context.runtime.host.truthy leftValue = conjunction then do
    let rightValue ← m.expr right
    context.lane.choose (fun _ => Mir.asCondition context.runtime rightValue = rightValue)
      (pure (Mir.asCondition context.runtime rightValue)) (pure rightValue)
  else
    context.lane.choose (fun _ => leftValue = .bool !conjunction)
      (pure (.bool !conjunction)) (pure leftValue)

/-- The operands on which the lanes compute a binary operator alike: Int results are in
range, and `%` has Ints. -/
def StrictSafe (operator : BinaryOperator) (left right : Value) : Prop := match operator with
  | .add => ∀ i j, left = .int i → right = .int j → InRange (i + j)
  | .sub => ∀ i j, left = .int i → right = .int j → InRange (i - j)
  | .mul => ∀ i j, left = .int i → right = .int j → InRange (i * j)
  | .div => ¬ (left = .int intMin ∧ right = .int (-1))
  | .rem => ∃ i j, left = .int i ∧ right = .int j ∧ ¬ (i = intMin ∧ j = -1)
  | .and | .or => False
  | _ => True

/-- The other binary operators. After an Error on the left only `%` goes on in the
interpreter; the lowered code has evaluated both operands before it looks. -/
def strictStep (operator : BinaryOperator) (left right : Expr) : Eval σ Value := do
  let leftValue ← m.expr left
  if leftValue.isError && operator != .rem then
    context.lane.choose (fun _ => False) (pure leftValue) do
      let _ ← m.expr right
      pure leftValue
  else do
    let rightValue ← m.expr right
    if leftValue.isError then pure leftValue
    else if rightValue.isError then pure rightValue
    else
      context.lane.choose (fun _ => StrictSafe operator leftValue rightValue)
        (exec (interpreterStrict context.runtime operator leftValue rightValue))
        (exec (Mir.strictBinary context.runtime operator leftValue rightValue))

def binaryStep (operator : BinaryOperator) (left right : Expr) : Eval σ Value := match operator with
  | .and => shortCircuit context m true left right
  | .or => shortCircuit context m false left right
  | operator => strictStep context m operator left right

def unaryStep (operator : UnaryOperator) (operand : Expr) : Eval σ Value :=
  match operator, negatedLiteral operand with
  | .neg, some value =>
    context.lane.choose (fun _ => False) (pure value) do
      exec (Mir.unaryValue context.runtime .neg (← m.expr operand))
  | operator, _ => do
    let value ← m.expr operand
    context.lane.choose (fun _ => ¬ (operator = .neg ∧ value = .int intMin))
      (exec (interpreterUnary context.runtime operator value))
      (exec (Mir.unaryValue context.runtime operator value))

/-! ### Match -/

/-- The arm the interpreter takes, by the variant name alone, and the payload it binds. -/
def interpreterArm (value : Value) (arms : List Arm) : Except Fault (Arm × Option Value) :=
  match value with
  | .enum _ variant payload _ =>
    match arms.find? fun arm => arm.variant == variant with
    | none => .error ⟨"KS3101", "match içinde '" ++ variant ++ "' varyantı için kol yok."⟩
    | some arm =>
      match arm.binding, payload with
      | none, _ => .ok (arm, none)
      | some _, some payload => .ok (arm, some payload)
      | some _, none => .error ⟨"KS3101", "'" ++ variant ++ "' payload taşımıyor."⟩
  | _ => .error ⟨"KS3101", "match çalışma anında bir enum, Option veya Result değeri bekler."⟩

/-- The arm the lowered code takes: the first whose canonical variant the value has. -/
def loweredArm (value : Value) : List Arm → Except Fault (Arm × Option Value)
  | [] => .error ⟨"KS5002", "MIR unreachable bloğa ulaştı: " ++
      "compiler-proven exhaustive match had no variant arm"⟩
  | arm :: rest =>
    match Mir.variantIs value arm.canonical with
    | .error message => .error ⟨"KS5002",
        "Canonical MIR variant comparison failed closed: " ++ message⟩
    | .ok false => loweredArm value rest
    | .ok true =>
      match arm.binding with
      | none => .ok (arm, none)
      | some _ =>
        match Mir.variantPayload value arm.canonical with
        | .ok payload => .ok (arm, some payload)
        | .error message => .error ⟨"KS5002",
            "Canonical MIR variant payload failed closed: " ++ message⟩

/-- Bind the payload of an arm, if it takes one. -/
def bindPayload (binding : Option (String × TypeNode)) (payload : Option Value) : Eval σ Unit :=
  match binding, payload with
  | some (name, _), some payload => define name ⟨payload, false⟩
  | _, _ => pure ()

def armValue : Arm → Eval σ Value
  | .expression _ _ _ body => m.expr body
  | .block _ _ _ body => executeBlock m body

/-- Evaluate the body of an arm with its payload bound. -/
def armBody (arm : Arm) (payload : Option Value) : Eval σ Value := inScope do
    bindPayload arm.binding payload
    armValue m arm

def matchStep (value : Expr) (arms : List Arm) : Eval σ Value := do
  let scrutinee ← m.expr value
  let (arm, payload) ←
    context.lane.choose (fun _ => interpreterArm scrutinee arms = loweredArm scrutinee arms)
      (exec (lift (interpreterArm scrutinee arms))) (exec (lift (loweredArm scrutinee arms)))
  armBody m arm payload

/-! ### Expressions and statements -/

/-- `_evaluate`. -/
def exprStep : Expr → Eval σ Value
  | .literal value _ =>
    context.lane.choose (fun _ => ∀ i, value = .int i → InRange i)
      (pure (interpreterLiteral value)) (pure (Mir.constValue value))
  | .ident name type =>
    context.lane.choose (context.NameSafe name type)
      (context.interpreterName name) (context.loweredIdent name type)
  | .interpolated parts _ =>
    context.lane.split
      (do pure (.str (← interpreterParts context m parts)))
      (do
        let values ← evaluateAll m parts
        pure (.str (← exec (renderAll context values))))
      (do pure (.str (← commonParts context m parts)))
  | .list items type =>
    context.lane.split (interpreterList context m items []) (loweredList context m items type)
      (do
        context.lane.require fun _ => type.listItem.isSome = true
        commonList context m items [])
  | .map entries _ =>
    context.lane.split (interpreterMap context m entries []) (loweredMap context m entries [])
      (commonMap context m entries [])
  | .struct typeName fields required type =>
    context.lane.split (interpreterStruct context m typeName fields)
      (loweredStruct context m typeName fields required type)
      (commonStruct context m typeName fields required type)
  | .member object name _ => do
    let receiver ← m.expr object
    context.lane.choose (fun _ => context.MemberSafe receiver name)
      (exec (context.interpreterMember receiver name))
      (exec (Mir.memberValue context.runtime receiver name))
  | .call callee arguments resolution type =>
    callStep context m callee arguments resolution type
  | .assign name value _ => do
    let result ← m.expr value
    assignName name result
  | .assignField object objectType field value _ =>
    context.lane.split (interpreterAssignField context m object field value)
      (do
        let receiver ← context.loweredIdent object objectType
        let result ← m.expr value
        exec (Mir.structFieldSet context.runtime receiver field result))
      (commonAssignField context m object objectType field value)
  | .binary left operator right _ => binaryStep context m operator left right
  | .unary operator operand _ => unaryStep context m operator operand
  | .orReturn value error _ => do
    let result ← m.expr value
    match result.unwrapFallible, error with
    | (true, payload), _ => pure payload
    | (false, _), none => raise (.ret result)
    | (false, _), some error => do raise (.ret (← m.expr error))
  | .orElse value fallback _ => do
    let result ← m.expr value
    match result.unwrapFallible with
    | (true, payload) => pure payload
    | (false, _) => m.expr fallback
  | .orBlock value handler _ => do
    let result ← m.expr value
    match result.unwrapFallible with
    | (true, payload) => pure payload
    | (false, _) => executeBlock m handler
  | .matchOn value arms _ _ => matchStep context m value arms

/-- How one turn of a loop ends. -/
inductive Turn where
  | done (value : Value)
  | continued
  | broken

/-- Run the body of a loop once and take its own signals. -/
def turn (body : Eval σ Value) : Eval σ Turn := Comp.handle (do pure (.done (← body))) fun signal =>
    match signal with
    | .brk => pure .broken
    | .cont => pure .continued
    | signal => raise signal

/-- One turn of a while loop; `result` is what the turns before it left. -/
def whileStep (condition : Expr) (body : List Stmt) (result : Value) : Eval σ Value := do
  let value ← m.expr condition
  if value.isError then pure value
  else if context.runtime.host.truthy value then do
    match ← turn (executeBlock m body) with
    | .done value =>
      if value.isError then pure value else m.whileLoop condition body value
    | .continued => m.whileLoop condition body result
    | .broken => pure result
  else pure result

/-- The turns of a for loop over the remaining items. -/
def forItems (name : String) (body : List Stmt) : List Value → Value → Eval σ Value
  | [], result => pure result
  | item :: rest, result => do
    match ← turn (inScope do
        define name ⟨item, false⟩
        executeStatements m body .unit) with
    | .done value => if value.isError then pure value else forItems name body rest value
    | .continued => forItems name body rest result
    | .broken => pure result

/-- A for loop. -/
def forStep (name : String) (iterable : Expr) (body : List Stmt) : Eval σ Value := do
  let value ← m.expr iterable
  match value with
  | .error message => pure (.error message)
  | .list items => forItems m name body items .unit
  | _ => fail ⟨"KS3101", "'for ... in' yalnızca List üzerinde çalışır."⟩

/-- `_execute_statement`. -/
def stmtStep : Stmt → Eval σ Value
  | .letIn name isMutable value => do
    let result ← m.expr value
    define name ⟨result, isMutable⟩
    pure .unit
  | .ret none => raise (.ret .unit)
  | .ret (some value) => do raise (.ret (← m.expr value))
  | .expression expression => m.expr expression
  | .ifThen (.mk condition thenBlock elseBranch) => do
    let value ← m.expr condition
    if value.isError then pure value
    else if context.runtime.host.truthy value then executeBlock m thenBlock
    else
      match elseBranch with
      | .nothing => pure .unit
      | .block statements => executeBlock m statements
      | .elseIf statement => m.stmt (.ifThen statement)
  | .whileDo condition body _ => m.whileLoop condition body .unit
  | .forIn name iterable body _ =>
    if iterable.type.iterableItem.isSome then forStep m name iterable body
    else
      context.lane.choose (fun _ => False) (forStep m name iterable body)
        (fail ⟨"KS5002", "MIR executor AST fallback çalıştırmaz: ForStatement"⟩)
  | .breakLoop => raise .brk
  | .continueLoop => raise .cont

end Step

/-- What is computed with `fuel`. -/
def meaning (context : Context σ) : Nat → Meaning σ
  | 0 => ⟨fun _ => timeout, fun _ => timeout, fun _ _ _ => timeout⟩
  | fuel + 1 =>
    let m := meaning context fuel
    ⟨exprStep context m, stmtStep context m, whileStep context m⟩

/-! ## Calls -/

/-- What a program is run with. -/
structure Setting (σ : Type) where
  runtime : Runtime σ
  inference : Inference σ
  program : Program

/-- Check the arguments of a call, as the interpreter does. -/
def interpreterArguments (setting : Setting σ) (function : FunctionDeclaration)
    (arguments : List Value) : Exec σ (Option (List String)) := do
  let contract ←
    if function.typeParameters.isEmpty then
      pure (function.parameters.map Parameter.names, function.returnNames)
    else askLift (setting.inference.callContract function arguments)
  checkNames (contract.1.zip arguments)
  pure contract.2
where
  checkNames : List (List String × Value) → Exec σ Unit
    | [] => pure ()
    | (names, value) :: rest => do
      let matched ← ask fun host => setting.runtime.matchesType host value names [] none
      if matched.1 then checkNames rest
      else raise ⟨"KS3106", "'" ++ function.name ++ "' çağrısında parametre"⟩

/-- Check the result of a call, as the interpreter does. -/
def interpreterReturn (setting : Setting σ) (function : FunctionDeclaration)
    (names : Option (List String)) (result : Value) : Exec σ Value :=
  match names with
  | none => pure result
  | some names => do
    let matched ← ask fun host => setting.runtime.matchesType host result names [] none
    if matched.1 then pure result
    else raise ⟨"KS3106", "'" ++ function.name ++ "' dönüş değeri"⟩

/-- The signature of the function as its lowered form has it. -/
def signature (function : FunctionDeclaration) : Mir.MirFunction where
  name := function.name
  parameters := function.parameters.map fun parameter => (parameter.name, parameter.type)
  returnType := function.returnType
  typeParameters := function.typeParameters
  blocks := []

/-- Check the arguments of a call, as the executor does. -/
def loweredArguments (setting : Setting σ) (function : FunctionDeclaration)
    (arguments : List Value) : Exec σ TypeBindings :=
  Mir.checkArguments setting.runtime (signature function)
    ((signature function).parameters.zip arguments)
    (if function.typeParameters.isEmpty then none else some [])

/-- The arguments pass the checks of both lanes. -/
def ArgumentsSafe (setting : Setting σ) (function : FunctionDeclaration)
    (arguments : List Value) (state : State σ) : Prop :=
  (∃ names, interpreterArguments setting function arguments state.store = .ok names state.store) ∧
    ∃ bindings, loweredArguments setting function arguments state.store = .ok bindings state.store

/-- The result passes the checks of both lanes. -/
def ReturnSafe (setting : Setting σ) (function : FunctionDeclaration)
    (names : Option (List String)) (bindings : TypeBindings) (result : Value)
    (state : State σ) : Prop :=
  interpreterReturn setting function names result state.store = .ok result state.store ∧
    Mir.checkReturn setting.runtime (signature function) bindings result state.store =
      .ok result state.store

/-- The scope a call starts with. A later parameter of the same name hides an earlier. -/
def parameterScope (parameters : List Parameter) (arguments : List Value) : Scope :=
  (((parameters.map Parameter.name).zip arguments).map fun entry =>
    (entry.1, (⟨entry.2, false⟩ : Cell))).reverse

/-- The body of a function: its `return`, or the way it completes. Falling off the end
hands the value of the last statement to the interpreter's caller, and unit to the caller
of lowered code. -/
def bodyResult (context : Context σ) (m : Meaning σ) (body : List Stmt) : Eval σ Value :=
  Comp.handle
    (do
      let value ← executeStatements m body .unit
      context.lane.choose (fun _ => value = .unit) (pure value) (pure .unit))
    fun signal =>
      match signal with
      | .ret value => pure value
      | signal => raise signal

def asCall (lane : Lane σ) (scopes : List Scope) (body : Eval σ Value) : Exec σ Value :=
  fun store =>
    match body ⟨store, scopes⟩ with
    | .ok value state => .ok value state.store
    | .raise (.fault fault) state => lane.callFault fault state.store
    | .raise (.ret value) state => .ok value state.store
    | .raise .brk state => lane.callFault ⟨"BreakSignal", ""⟩ state.store
    | .raise .cont state => lane.callFault ⟨"ContinueSignal", ""⟩ state.store
    | .timeout => .timeout

def changeDepth (change : Nat → Nat) (state : State σ) : State σ :=
  { state with store := { state.store with depth := change state.store.depth } }

/-- The evaluation of a call: arity, argument types, call depth, body, result type. -/
def callBody (setting : Setting σ) (context : Context σ) (m : Meaning σ)
    (function : FunctionDeclaration) (arguments : List Value) : Eval σ Value := do
  if arguments.length ≠ function.parameters.length then
    fail ⟨"KS3101", "'" ++ function.name ++ "' için " ++
      toString function.parameters.length ++ " argüman bekleniyor, " ++
      toString arguments.length ++ " verildi."⟩
  else do
    withState fun state => do
      context.lane.choose (ArgumentsSafe setting function arguments)
        (exec do
          let _ ← interpreterArguments setting function arguments
          pure ())
        (exec do
          let _ ← loweredArguments setting function arguments
          pure ())
      -- What each lane learned about the result while it checked the arguments.
      let names := (interpreterArguments setting function arguments state.store).resultD none
      let bindings := (loweredArguments setting function arguments state.store).resultD none
      if maxCallDepth ≤ state.store.depth then
        fail ⟨"KS3105", "Çağrı derinliği sınırı aşıldı (" ++ toString maxCallDepth ++ ")"⟩
      else
        Comp.finallyDo
          (do
            Comp.modify (changeDepth (· + 1))
            let result ← bodyResult context m function.body
            context.lane.choose (ReturnSafe setting function names bindings result)
              (exec (interpreterReturn setting function names result))
              (exec (Mir.checkReturn setting.runtime (signature function) bindings result)))
          (changeDepth (· - 1))

/-- `_call_function`. The fuel bounds the nesting of calls and each body. -/
def callFunction (lane : Lane σ) (setting : Setting σ) : Nat → Caller σ
  | 0, _, _, _ => timeout
  | fuel + 1, moduleKey, functionName, arguments =>
    match setting.program.moduleFunction moduleKey functionName with
    | .error fault => lane.callFault fault
    | .ok (module, function) =>
      let context : Context σ := ⟨setting.runtime, setting.inference, lane,
        setting.program, module, callFunction lane setting fuel⟩
      asCall lane [parameterScope function.parameters arguments]
        (callBody setting context (meaning context fuel) function arguments)

end Koschei.Ast
