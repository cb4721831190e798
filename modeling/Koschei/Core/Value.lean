import Koschei.Lib.Names
import Mathlib.Data.String.Basic

/-!
# Types and runtime values

The structural type nodes the checker records, and the values every execution
lane computes with. A value is what the host holds in a variable: the scalars,
an `Error` value, the containers in insertion order, an enum value with its
optional payload and the text of its type arguments, and the callable and
module references. A host object with an identity of its own (an iterator, a
container builder, a capability token, a record that is assigned to) is an
address. The placeholder an enum value without payload stores is a value too,
since unwrapping such a value hands it out.

Builtin names such as `print` are plain strings at run time, as they are in the
source.
-/

namespace Koschei

/-! ## Type nodes -/

/-- A structural type node of the typed intermediate representation. -/
inductive TypeNode where
  | unknown
  | named (name : String)
  | variable (name : String)
  | generic (name : String) (arguments : List TypeNode)
  | union (options : List TypeNode)
  deriving BEq, Inhabited

namespace TypeNode

mutual
/-- The canonical text of a type. -/
def render : TypeNode → String
  | .unknown => "_"
  | .named name => name
  | .variable name => name
  | .generic name arguments => name ++ "<" ++ ", ".intercalate (renderAll arguments) ++ ">"
  | .union options => " or ".intercalate (renderAll options)

def renderAll : List TypeNode → List String
  | [] => []
  | node :: nodes => render node :: renderAll nodes
end

/-- The options of a union, or the type itself. -/
def alternatives : TypeNode → List TypeNode
  | .union options => options
  | node => [node]

def headName : TypeNode → Option String
  | .named name => some name
  | .generic name _ => some name
  | _ => none

/-- The arguments of a generic type; none for any other. -/
def arguments : TypeNode → List TypeNode
  | .generic _ arguments => arguments
  | _ => []

/-- Keep the first of the types with one text. -/
def dedupByText (types : List TypeNode) : List TypeNode :=
  (types.foldl (fun (kept : List TypeNode) node =>
    if kept.any fun other => other.render == node.render then kept else kept ++ [node]) [])

/-- `union_type`: flattened, without unknowns, one type for each text, in the
order of the texts. -/
def unionType (types : List TypeNode) : TypeNode := let flattened := types.flatMap fun node =>
    match node with
    | .unknown => []
    | .union options => options
    | node => [node]
  match (dedupByText flattened).mergeSort (fun a b => decide (a.render ≤ b.render)) with
  | [] => .unknown
  | [node] => node
  | nodes => .union nodes

mutual
/-- `substitute_type`: put type arguments in the place of type variables. -/
def substitute (mapping : List (String × TypeNode)) : TypeNode → TypeNode
  | .variable name => (mapping.reverse.lookup name).getD (.variable name)
  | .generic name arguments => .generic name (substituteAll mapping arguments)
  | .union options => unionType (substituteAll mapping options)
  | .unknown => .unknown
  | .named name => .named name

def substituteAll (mapping : List (String × TypeNode)) : List TypeNode → List TypeNode
  | [] => []
  | node :: nodes => substitute mapping node :: substituteAll mapping nodes
end

/-- `_runtime_names`: the texts a value may match. -/
def runtimeNames (node : TypeNode) : List String := node.alternatives.map render

/-- The element type of a plain `List<T>`. -/
def listItem : TypeNode → Option TypeNode
  | .generic "List" [item] => some item
  | _ => none

/-- The element types of the success options of an iterable, none when one is no list. -/
def iterableItems : List TypeNode → Option (List TypeNode)
  | [] => some []
  | .generic "List" arguments :: options =>
    (iterableItems options).map fun items => arguments.headD .unknown :: items
  | .named "List" :: options | .unknown :: options =>
    (iterableItems options).map fun items => .unknown :: items
  | _ :: _ => none

/-- `iterable_success_item_type`: the element type of a loop over a checked iterable,
whose `Error` alternative is control flow. -/
def iterableItem (node : TypeNode) : Option TypeNode :=
  match node.alternatives.filter fun option => option != .named "Error" with
  | [] => none
  | options => (iterableItems options).map unionType

def bool : TypeNode := .named "Bool"

def string : TypeNode := .named "String"

def void : TypeNode := .named "Void"

end TypeNode

/-! ## Values -/

/-- A runtime value. -/
inductive Value where
  | unit
  | bool (b : Bool)
  | int (i : Int)
  | float (bits : BitVec 64)
  | str (s : String)
  | error (message : String)
  | list (items : List Value)
  | map (entries : List (String × Value))
  | struct (typeName : String) (fields : List (String × Value)) (typeArguments : List String)
  | enum (enumName variant : String) (payload : Option Value) (typeArguments : List String)
  | function (moduleKey name : String)
  | module (key : String)
  | constructor (name : String)
  | member (receiver : Value) (name : String)
  | object (address : Nat)
  | noPayload
  deriving BEq, Inhabited

/-- A failure that ends a run: the code and text of the raised exception. -/
structure Fault where
  code : String
  message : String
  deriving BEq, DecidableEq, Inhabited

namespace Fault

/-- A lookup in a host dictionary that has no such key. -/
def keyError : Fault := ⟨"KeyError", ""⟩

/-- A host operator applied to operands it does not support. -/
def typeError : Fault := ⟨"TypeError", ""⟩

/-- A host object without the attribute that is read. -/
def attributeError : Fault := ⟨"AttributeError", ""⟩

end Fault

namespace Value

/-- `isinstance(value, KsError)`. -/
def isError : Value → Bool
  | .error _ => true
  | _ => false

/-- The payload field of an enum value built with `value` as its payload. -/
def asPayload : Value → Option Value
  | .noPayload => none
  | value => some value

/-- The payload field of an enum value, as it is read. -/
def ofPayload (payload : Option Value) : Value := payload.getD .noPayload

/-- `_unwrap_fallible`: whether a value is a success, and what it carries. -/
def unwrapFallible : Value → Bool × Value
  | .error message => (false, .error message)
  | .enum "Option" "Some" payload _ => (true, ofPayload payload)
  | .enum "Option" "None" payload arguments => (false, .enum "Option" "None" payload arguments)
  | .enum "Result" "Ok" payload _ => (true, ofPayload payload)
  | .enum "Result" "Err" payload arguments => (false, .enum "Result" "Err" payload arguments)
  | value => (true, value)

end Value

/-! ## Operators -/

/-- The binary operators of the language. -/
inductive BinaryOperator where
  | add | sub | mul | div | rem
  | eq | ne | lt | le | gt | ge
  | and | or
  deriving BEq, DecidableEq, Inhabited

/-- The text of an operator, as error messages quote it. -/
def BinaryOperator.text : BinaryOperator → String
  | .add => "+" | .sub => "-" | .mul => "*" | .div => "/" | .rem => "%"
  | .eq => "==" | .ne => "!=" | .lt => "<" | .le => "<=" | .gt => ">" | .ge => ">="
  | .and => "&&" | .or => "||"

/-- The unary operators of the language. -/
inductive UnaryOperator where
  | not | neg
  deriving BEq, DecidableEq, Inhabited

/-- `INT_MIN` of `semantic.py`. -/
def intMin : Int := -9223372036854775808

/-- `INT_MAX` of `semantic.py`. -/
def intMax : Int := 9223372036854775807

/-- `INT_MIN_MAGNITUDE` of `semantic.py`. -/
def intMinMagnitude : Int := 9223372036854775808

/-- The signed 64-bit range. -/
def InRange (i : Int) : Prop := intMin ≤ i ∧ i ≤ intMax

instance (i : Int) : Decidable (InRange i) := inferInstanceAs (Decidable (_ ∧ _))

end Koschei
