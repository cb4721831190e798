import Koschei.Core.Runtime
import Koschei.Lib.Checks

/-!
# Checked syntax trees

The expressions and statements of the language as the later phases see them: the
parsed tree together with what the checker recorded for each node. Every
expression carries its checked type; a call carries the resolution the checker
gave it (an ordinary call, a capability operation, a Map method), a struct
literal the fields it must set, a match the canonical variant of each arm, and a
loop the type its body has when it ends normally. Source locations are left out.
-/

namespace Koschei.Ast

/-- What the checker recorded for a call. -/
inductive CallResolution where
  | plain
  | capability (capabilityType method canonicalEffect powerDomain : String)
  | mapMethod (method : String)
  deriving BEq, DecidableEq, Inhabited

mutual
/-- Expressions. -/
inductive Expr where
  | literal (value : Value) (type : TypeNode)
  | ident (name : String) (type : TypeNode)
  | interpolated (parts : List Expr) (type : TypeNode)
  | list (items : List Expr) (type : TypeNode)
  | map (entries : List (Expr × Expr)) (type : TypeNode)
  | struct (typeName : String) (fields : List (String × Expr)) (required : List String)
      (type : TypeNode)
  | member (object : Expr) (member : String) (type : TypeNode)
  | call (callee : Expr) (arguments : List Expr) (resolution : CallResolution)
      (type : TypeNode)
  | assign (name : String) (value : Expr) (type : TypeNode)
  | assignField (object : String) (objectType : TypeNode) (field : String) (value : Expr)
      (type : TypeNode)
  | binary (left : Expr) (operator : BinaryOperator) (right : Expr) (type : TypeNode)
  | unary (operator : UnaryOperator) (operand : Expr) (type : TypeNode)
  | orReturn (value : Expr) (error : Option Expr) (type : TypeNode)
  | orElse (value fallback : Expr) (type : TypeNode)
  | orBlock (value : Expr) (handler : List Stmt) (type : TypeNode)
  | matchOn (value : Expr) (arms : List Arm) (exhaustive : Bool) (type : TypeNode)

/-- A match arm. Its binding is there exactly when the arm takes the payload. -/
inductive Arm where
  | expression (variant canonical : String) (binding : Option (String × TypeNode)) (body : Expr)
  | block (variant canonical : String) (binding : Option (String × TypeNode))
      (body : List Stmt)

/-- An if statement. -/
inductive IfStmt where
  | mk (condition : Expr) (thenBlock : List Stmt) (elseBranch : Else)

/-- What an if statement does otherwise. -/
inductive Else where
  | nothing
  | block (statements : List Stmt)
  | elseIf (statement : IfStmt)

/-- Statements. -/
inductive Stmt where
  | letIn (name : String) (isMutable : Bool) (value : Expr)
  | ret (value : Option Expr)
  | expression (expression : Expr)
  | ifThen (statement : IfStmt)
  | whileDo (condition : Expr) (body : List Stmt) (bodyType : Option TypeNode)
  | forIn (name : String) (iterable : Expr) (body : List Stmt) (bodyType : Option TypeNode)
  | breakLoop
  | continueLoop
end

/-- `_type_of`. -/
def Expr.type : Expr → TypeNode
  | .literal _ type | .ident _ type | .interpolated _ type | .list _ type | .map _ type
  | .struct _ _ _ type | .member _ _ type | .call _ _ _ type | .assign _ _ type
  | .assignField _ _ _ _ type | .binary _ _ _ type | .unary _ _ type | .orReturn _ _ type
  | .orElse _ _ type | .orBlock _ _ type | .matchOn _ _ _ type => type

namespace Arm

/-- The variant name written in the source. -/
def variant : Arm → String
  | .expression variant .. | .block variant .. => variant

/-- The canonical `Owner::Variant` the checker resolved. -/
def canonical : Arm → String
  | .expression _ canonical .. | .block _ canonical .. => canonical

/-- The name the payload is bound to, with its type. -/
def binding : Arm → Option (String × TypeNode)
  | .expression _ _ binding _ | .block _ _ binding _ => binding

end Arm

/-! ## Declared names -/

mutual
/-- The names an expression declares: those of the statements and match arms inside it. -/
def Expr.declared : Expr → List String
  | .literal _ _ => []
  | .ident _ _ => []
  | .interpolated parts _ => declaredAll parts
  | .list items _ => declaredAll items
  | .map entries _ => declaredEntries entries
  | .struct _ fields _ _ => declaredFields fields
  | .member object _ _ => object.declared
  | .call callee arguments _ _ => callee.declared ++ declaredAll arguments
  | .assign _ value _ => value.declared
  | .assignField _ _ _ value _ => value.declared
  | .binary left _ right _ => left.declared ++ right.declared
  | .unary _ operand _ => operand.declared
  | .orReturn value none _ => value.declared
  | .orReturn value (some error) _ => value.declared ++ error.declared
  | .orElse value other _ => value.declared ++ other.declared
  | .orBlock value handler _ => value.declared ++ declaredStmts handler
  | .matchOn value arms _ _ => value.declared ++ declaredArms arms

def declaredAll : List Expr → List String
  | [] => []
  | expression :: rest => expression.declared ++ declaredAll rest

def declaredEntries : List (Expr × Expr) → List String
  | [] => []
  | (key, value) :: rest => key.declared ++ value.declared ++ declaredEntries rest

def declaredFields : List (String × Expr) → List String
  | [] => []
  | (_, value) :: rest => value.declared ++ declaredFields rest

def declaredArms : List Arm → List String
  | [] => []
  | .expression _ _ binding body :: rest =>
    binding.toList.map fst ++ body.declared ++ declaredArms rest
  | .block _ _ binding body :: rest =>
    binding.toList.map fst ++ declaredStmts body ++ declaredArms rest

/-- The names a statement declares. -/
def Stmt.declared : Stmt → List String
  | .letIn name _ value => name :: value.declared
  | .ret none => []
  | .ret (some value) => value.declared
  | .expression expression => expression.declared
  | .ifThen statement => statement.declared
  | .whileDo condition body _ => condition.declared ++ declaredStmts body
  | .forIn name iterable body _ => name :: (iterable.declared ++ declaredStmts body)
  | .breakLoop => []
  | .continueLoop => []

def IfStmt.declared : IfStmt → List String
  | .mk condition thenBlock elseBranch =>
    condition.declared ++ declaredStmts thenBlock ++ elseBranch.declared

def Else.declared : Else → List String
  | .nothing => []
  | .block statements => declaredStmts statements
  | .elseIf statement => statement.declared

def declaredStmts : List Stmt → List String
  | [] => []
  | statement :: rest => statement.declared ++ declaredStmts rest
end

/-! ## Variant constructors -/

/-- A name that is written as a variant: it starts with an upper-case letter and is not
`Error`. -/
def variantName (host : Host) (name : String) : Bool := match name.toList with
  | first :: _ => host.isUpper first && name != "Error"
  | [] => false

/-- `owner.startswith("Module:")`. -/
def startsWithModule (owner : String) : Bool := "Module:".toList.isPrefixOf owner.toList

/-- Whether `::` occurs in a text. -/
def hasColons : List Char → Bool
  | ':' :: ':' :: _ => true
  | _ :: rest => hasColons rest
  | [] => false

/-- The canonical identity `_emit_construct` seals for a variant of the checked type. -/
def constructIdentity (type : TypeNode) (variant : String) : Option String :=
  match type.headName with
  | some owner =>
    if startsWithModule owner || hasColons owner.toList then none
    else some (owner ++ "::" ++ variant)
  | none => none

/-! ## Functions and programs -/

/-- A parameter: its name, the type names written in the source, and its checked type. -/
structure Parameter where
  name : String
  names : List String
  type : TypeNode

/-- A checked function. Without a written return type the checked one is `Void`. -/
structure FunctionDeclaration where
  name : String
  typeParameters : List String
  parameters : List Parameter
  returnNames : Option (List String)
  returnType : TypeNode
  body : List Stmt

/-- A checked module. -/
structure Module where
  key : String
  name : String
  imports : List (String × String)
  functions : List FunctionDeclaration

/-- A checked program. -/
structure Program where
  root : String
  modules : List Module

namespace Program

variable (program : Program)

def moduleOf (key : String) : Except Fault Module :=
  match program.modules.find? fun module => module.key == key with
  | some module => .ok module
  | none => .error .keyError

def moduleFunction (moduleKey functionName : String) :
    Except Fault (Module × FunctionDeclaration) := do
  let module ← program.moduleOf moduleKey
  match module.functions.find? fun function => function.name == functionName with
  | some function => .ok (module, function)
  | none => .error ⟨"KS3101", "Tanımsız isim: '" ++ functionName ++ "'."⟩

variable {program} {key name : String} {module : Module} {function : FunctionDeclaration}

theorem moduleFunction_ok (found : program.moduleFunction key name = .ok (module, function)) :
    program.modules.find? (fun module => module.key == key) = some module ∧
      module.functions.find? (fun function => function.name == name) = some function := by
  obtain ⟨other, located, found⟩ := Lib.bind_eq_ok found
  unfold moduleOf at located
  split at located <;> cases located
  split at found <;> cases found
  exact ⟨‹_›, ‹_›⟩

end Program

end Koschei.Ast
