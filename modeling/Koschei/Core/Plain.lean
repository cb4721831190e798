import Koschei.Core.Runtime

/-!
# A runtime that only prints

Runs on concrete programs need a concrete `Runtime`. This one has the texts of
`ks_to_string`, the builtins `print`, `println` and `Error`, and structural
equality; it has no members, capabilities, queues or tasks, and its numbers are
integers. Runtime types are compared by their texts, which is exact for the
scalar types. Its host state is the output written so far.
-/

namespace Koschei

open Lib

/-- A host without doubles. -/
def integerHost : Host where
  arith := fun _ _ _ => .error .typeError
  compare := fun _ _ _ => false
  equal := fun _ _ => false
  negate := id
  isZero := fun _ => false
  floatText := fun _ => ""
  objectText := fun _ => "object"
  isUpper := Char.isUpper

mutual
/-- `ks_to_string`. -/
def ksToString (host : Host) : Value → String
  | .unit => "unit"
  | .bool b => if b then "true" else "false"
  | .int i => toString i
  | .float bits => host.floatText bits
  | .str s => s
  | .error message => message
  | .list items => "[" ++ ", ".intercalate (ksReprAll host items) ++ "]"
  | .map entries => "\x7b" ++ ", ".intercalate (ksEntries host entries) ++ "\x7d"
  | .struct typeName fields _ =>
    typeName ++ " \x7b " ++ ", ".intercalate (ksFields host fields) ++ " \x7d"
  | .enum _ variant none _ => variant
  | .enum _ variant (some payload) _ => variant ++ "(" ++ ksRepr host payload ++ ")"
  | value => host.objectText value

/-- `_ks_repr`: texts inside containers are quoted. -/
def ksRepr (host : Host) : Value → String
  | .str s => "\"" ++ s ++ "\""
  | .unit => "unit"
  | .bool b => if b then "true" else "false"
  | .int i => toString i
  | .float bits => host.floatText bits
  | .error message => message
  | .list items => "[" ++ ", ".intercalate (ksReprAll host items) ++ "]"
  | .map entries => "\x7b" ++ ", ".intercalate (ksEntries host entries) ++ "\x7d"
  | .struct typeName fields _ =>
    typeName ++ " \x7b " ++ ", ".intercalate (ksFields host fields) ++ " \x7d"
  | .enum _ variant none _ => variant
  | .enum _ variant (some payload) _ => variant ++ "(" ++ ksRepr host payload ++ ")"
  | value => host.objectText value

def ksReprAll (host : Host) : List Value → List String
  | [] => []
  | value :: values => ksRepr host value :: ksReprAll host values

def ksEntries (host : Host) : List (String × Value) → List String
  | [] => []
  | (key, value) :: entries =>
    ("\"" ++ key ++ "\": " ++ ksRepr host value) :: ksEntries host entries

def ksFields (host : Host) : List (String × Value) → List String
  | [] => []
  | (name, value) :: fields => (name ++ ": " ++ ksRepr host value) :: ksFields host fields
end

mutual
/-- `_runtime_type_node`. The texts of type arguments are kept as they are. -/
def runtimeTypeNode : Value → TypeNode
  | .unit => .void
  | .bool _ => .bool
  | .int _ => .named "Int"
  | .float _ => .named "Float"
  | .str _ => .string
  | .error _ => .named "Error"
  | .list items => .generic "List" [.unionType (runtimeTypeNodes items)]
  | .map entries =>
    .generic "Map" [if entries.isEmpty then .unknown else .string,
      .unionType (runtimeEntryNodes entries)]
  | .struct typeName _ arguments =>
    if arguments.isEmpty then .named typeName
    else .generic typeName (arguments.map TypeNode.named)
  | .enum "Option" _ payload _ => .generic "Option" [payloadNode payload]
  | .enum "Result" "Ok" payload _ => .generic "Result" [payloadNode payload, .unknown]
  | .enum "Result" _ payload _ => .generic "Result" [.unknown, payloadNode payload]
  | .enum enumName _ _ arguments =>
    if arguments.isEmpty then .named enumName
    else .generic enumName (arguments.map TypeNode.named)
  | _ => .named "object"

def runtimeTypeNodes : List Value → List TypeNode
  | [] => []
  | value :: values => runtimeTypeNode value :: runtimeTypeNodes values

def runtimeEntryNodes : List (String × Value) → List TypeNode
  | [] => []
  | (_, value) :: entries => runtimeTypeNode value :: runtimeEntryNodes entries

def payloadNode : Option Value → TypeNode
  | none => .unknown
  | some value => runtimeTypeNode value
end

/-- The output written so far, one text for each write. -/
abbrev Output := List String

/-- The builtins that print, and `Error`. -/
def plainInvoke (host : Host) (callee : Value) (arguments : List Value) (output : Output) :
    Prim Output :=
  match callee, arguments with
  | .str "println", [value] => .done (.ok .unit) (output ++ [ksToString host value ++ "\n"])
  | .str "print", [value] => .done (.ok .unit) (output ++ [ksToString host value])
  | .str "Error", [value] => .done (.ok (.error (ksToString host value))) output
  | _, _ => .done (.error ⟨"KS3101", "Çağrılabilir bir değer bekleniyordu."⟩) output

/-- The printing runtime. -/
def plainRuntime : Runtime Output where
  host := integerHost
  constructor := fun _ => none
  structs := fun _ => none
  member := fun _ _ name => .error ⟨"KS3101", "'" ++ name ++ "' bulunamadı."⟩
  invoke := plainInvoke integerHost
  capabilityContract := fun _ _ _ _ _ _ => .error .typeError
  matchesType := fun _ value names _ bindings =>
    (names.any fun name => name == "_" || name == (runtimeTypeNode value).render, bindings)
  runtimeTypeName := fun _ value => (runtimeTypeNode value).render
  containsCapability := fun _ _ => false
  toText := fun _ value => .ok (ksToString integerHost value)
  equal := fun _ left right => .ok (integerHost.equalValue left right)
  compare := fun _ op left right => integerHost.compareValue op left right
  newStruct := fun typeName fields arguments output =>
    (.struct typeName fields arguments, output)
  structParts := fun _ value =>
    match value with
    | .struct typeName fields arguments => some (typeName, fields, arguments)
    | _ => none
  writeField := fun _ _ _ output => output
  text_plain := fun _ _ => rfl
  equal_int := fun _ i j => by
    simp [Host.equalValue, Value.num?, Host.equalNum]
  compare_int := fun _ op i j => by
    simp [Host.compareValue, Value.num?, Host.compareNum]

/-- An empty store of the printing runtime. -/
def emptyStore : Store Output := ⟨[], [], 0⟩

end Koschei
