import Koschei.Core.Plain
import Koschei.Go.Agreement
import Koschei.Ast.Evaluate
import Koschei.Values.Builtins

/-!
# An outside on which programs can be run

Runs on concrete programs need a concrete `Outside`: without doubles and without
an operating system, with the texts and the structural equality of the printing
runtime. Runtime types are compared by their texts.
-/

namespace Koschei.Values

open Lib Ast

/-- The host's text of a value's class, for what has no type of its own. -/
def plainTypeNode (world : World) (value : Value) : TypeNode := match world.objectOf value with
  | some (.record typeName _ typeArguments) =>
    if typeArguments.isEmpty then .named typeName
    else .generic typeName (typeArguments.map TypeNode.named)
  | some (.capability kind _ _) => .named kind.typeName
  | some (.response _ _) => .named "Response"
  | some (.queue _) => .named "BoundedQueueValue"
  | some (.tasks _) => .named "TaskScopeValue"
  | some (.decimal _ _) => .named "DecimalValue"
  | some (.data _) => .named "JsonData"
  | none =>
    match value with
    | .member _ _ => .named "_BoundMember"
    | value => runtimeTypeNode value

def noDoubles : Doubles where
  arith _ _ _ := .error .typeError
  compare _ _ _ := false
  equal _ _ := false
  negate := id
  isZero _ := false
  isFinite _ := false
  floatText _ := ""
  parse _ := none

/-- An outside that answers nothing of interest. -/
def plainOutside : Outside where
  library := asciiLibrary
  doubles := noDoubles
  objectText _ := "object"
  isUpper := Char.isUpper
  operate _ _ _ _ _ := .done
  policy _ _ _ := none
  decode text := .ok text
  encode text := .ok text
  toText _ value := .ok (ksToString integerHost value)
  hostText _ value := ksToString integerHost value
  equal _ left right := .ok (integerHost.equalValue left right)
  compare _ op left right := integerHost.compareValue op left right
  structurallyEqual _ left right := integerHost.equalValue left right
  typeNode := plainTypeNode
  matchesNode world value node := (plainTypeNode world value).render == node.render
  matchesType world value names _ bindings :=
    (names.any fun name => name == "_" || name == (plainTypeNode world value).render, bindings)
  enumArguments _ _ _ := .ok []
  equal_int _ i j := by simp [Host.equalValue, Value.num?, Host.equalNum]
  compare_int _ op i j := by simp [Host.compareValue, Value.num?, Host.compareNum]

/-- A program without enums and structs. -/
def plainDeclared : Declared where
  constructors _ := none
  structs _ := none
  parameters _ _ := none
  returns _ _ := false

/-- The type parameter of a generic function is bound to the type of its argument. -/
def plainInference : Inference World where
  callContract _ arguments world :=
    .ok (arguments.map fun argument => [(plainTypeNode world argument).render], none)
  structContract _ _ _ := .ok []

/-- A program of one module. -/
def plainSetting (functions : List FunctionDeclaration) : Setting World where
  runtime := runtime plainOutside plainDeclared
  inference := plainInference
  program := ⟨"main", [⟨"main", "main", [], functions⟩]⟩

/-- A function without a declared result. -/
def plainFunction (name : String) (typeParameters : List String) (parameters : List Parameter)
    (body : List Stmt) : FunctionDeclaration :=
  ⟨name, typeParameters, parameters, none, .void, body⟩

/-- A world without objects. -/
def emptyWorld : World := ⟨[], [], []⟩

end Koschei.Values
