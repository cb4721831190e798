import Koschei.Core.Runtime
import Koschei.Types.Matching
import Koschei.Go.Methods

/-!
# The world of a run

What the interpreter's value runtime works on besides plain values. Everything
with an identity lives under an address: a record, whose fields can be assigned;
the capability tokens; a response of the network; a bounded queue with its ring
buffer; a task scope with its records; and the opaque Decimal and Data values.
The world also keeps what was printed and which methods of capabilities were
invoked.

What the operating system answers, the arithmetic of doubles, the JSON codec and
the readings that only yield texts and truth values (rendering, equality, runtime
types) come from an `Outside`.
-/

namespace Koschei.Values

/-! ## Objects -/

/-- The states of a task, `TASK_PENDING` to `TASK_CANCELLED`. -/
inductive TaskState where
  | pending | running | done | failed | cancelled
  deriving DecidableEq

/-- `TaskRecord`. -/
structure TaskRecord where
  worker : Value
  argument : Value
  state : TaskState
  failure : Option Value

/-- `MAX_TASK_CAPACITY`. -/
def maxTaskCapacity : Nat := 4096

/-- `TaskScopeValue`: the records spawned so far are its occupied slots. -/
structure TaskScope where
  capacity : Nat
  slots : List TaskRecord
  closed : Bool
  joinResult : Option Value
  capacity_le : capacity ≤ maxTaskCapacity
  slots_le : slots.length ≤ capacity

/-- `MAX_QUEUE_CAPACITY`. -/
def maxQueueCapacity : Nat := 65536

/-- `BoundedQueueValue`: a ring buffer. -/
structure BoundedQueue where
  capacity : Nat
  itemType : TypeNode
  buffer : List (Option Value)
  head : Nat
  tail : Nat
  count : Nat
  capacity_le : capacity ≤ maxQueueCapacity
  count_le : count ≤ capacity

/-- An object of the value runtime. A capability token has the arguments it was narrowed
with, and `SystemCaps` the root tokens it hands out. -/
inductive HostObject where
  | record (typeName : String) (fields : List (String × Value)) (typeArguments : List String)
  | capability (kind : Capability) (scope : List Value) (roots : List (String × Value))
  | response (body : String) (statusCode : Int)
  | queue (queue : BoundedQueue)
  | tasks (scope : TaskScope)
  | decimal (atoms : Int) (scale : Int)
  | data (text : String)

/-- A method of a capability that was invoked: the token's address, the method and the
arguments. -/
structure Operation where
  token : Nat
  method : String
  arguments : List Value

/-- What the value runtime changes. -/
structure World where
  objects : List HostObject
  output : List String
  operations : List Operation

namespace World

def objectOf (world : World) : Value → Option HostObject
  | .object address => world.objects[address]?
  | _ => none

/-- Put an object under a fresh address. -/
def allocate (world : World) (object : HostObject) : Value × World :=
  (.object world.objects.length, { world with objects := world.objects ++ [object] })

def replace (world : World) (address : Nat) (object : HostObject) : World :=
  { world with objects := world.objects.set address object }

end World

/-! ## Addresses and capabilities -/

mutual
/-- Whether an address held by a value satisfies a test. The receiver of a bound member is
not looked at, nor is what an object holds. -/
def anyHeld (test : Nat → Bool) : Value → Bool
  | .object address => test address
  | .list items => anyHeldItem test items
  | .map entries | .struct _ entries _ => anyHeldEntry test entries
  | .enum _ _ payload _ => anyHeldPayload test payload
  | .unit | .bool _ | .int _ | .float _ | .str _ | .error _ => false
  | .function _ _ | .module _ | .constructor _ | .member _ _ | .noPayload => false

def anyHeldItem (test : Nat → Bool) : List Value → Bool
  | [] => false
  | item :: items => anyHeld test item || anyHeldItem test items

def anyHeldEntry (test : Nat → Bool) : List (String × Value) → Bool
  | [] => false
  | (_, item) :: entries => anyHeld test item || anyHeldEntry test entries

def anyHeldPayload (test : Nat → Bool) : Option Value → Bool
  | none => false
  | some payload => anyHeld test payload
end

/-- `_contains_capability`, following records up to a depth. -/
def carries (world : World) : Nat → Value → Bool
  | 0, _ => false
  | depth + 1, value => anyHeld (fun address =>
    match world.objects[address]? with
    | some (.capability _ _ _) => true
    | some (.record _ fields _) => fields.any fun field => carries world depth field.2
    | _ => false) value

/-- `_contains_capability`. A path that comes to a record twice finds nothing new, which is
what the set of visited objects is for; so the number of objects bounds the depth. -/
def containsCapability (world : World) (value : Value) : Bool :=
  carries world (world.objects.length + 1) value

/-! ## What comes from outside -/

/-- What an operation of a capability answers. -/
inductive Answer where
  | text (text : String)
  | texts (texts : List String)
  | done
  | failure (message : String)
  | response (body : String) (status : Fin 1000)
  | refused (fault : Fault)

/-- `_EnumConstructor`. -/
structure EnumConstructor where
  enumName : String
  variant : String
  payloadType : Option (List String)
  typeParameters : List String

/-- The arithmetic of doubles, and their texts. -/
structure Doubles where
  arith : ArithOp → Num → Num → Except Fault (BitVec 64)
  compare : CompareOp → Num → Num → Bool
  equal : Num → Num → Bool
  negate : BitVec 64 → BitVec 64
  isZero : BitVec 64 → Bool
  isFinite : BitVec 64 → Bool
  floatText : BitVec 64 → String
  parse : String → Option (BitVec 64)

/-- Everything the value runtime takes as it is. `operate` is what a method of a narrowed
capability answers and `policy` what a root refuses to narrow to; a status code of a
response has three digits. The readings look at the world and give a text, a truth value or
a type. -/
structure Outside where
  library : HostLibrary
  doubles : Doubles
  objectText : Value → String
  isUpper : Char → Bool
  operate : World → Capability → List Value → String → List Value → Answer
  policy : Capability → String → List Value → Option Answer
  decode : String → Except String String
  encode : String → Except String String
  toText : World → Value → Except Fault String
  hostText : World → Value → String
  equal : World → Value → Value → Except Fault Bool
  compare : World → CompareOp → Value → Value → Except Fault Bool
  structurallyEqual : World → Value → Value → Bool
  typeNode : World → Value → TypeNode
  matchesNode : World → Value → TypeNode → Bool
  matchesType : World → Value → List String → List String → TypeBindings → Bool × TypeBindings
  enumArguments : World → EnumConstructor → Option Value → Except Fault (List String)
  equal_int : ∀ world i j, equal world (.int i) (.int j) = .ok (i == j)
  compare_int : ∀ world op i j, compare world op (.int i) (.int j) = .ok (Host.applyCompare op i j)

/-- The host's operators. -/
def Outside.host (outside : Outside) : Host where
  arith op left right := (outside.doubles.arith op left right).map Value.float
  compare := outside.doubles.compare
  equal := outside.doubles.equal
  negate := outside.doubles.negate
  isZero := outside.doubles.isZero
  floatText := outside.doubles.floatText
  objectText := outside.objectText
  isUpper := outside.isUpper

/-- What the program declares, as far as the value runtime looks it up: the constructors of
its enums, its structs, and of a function how many parameters it has and whether a return
type is written. -/
structure Declared where
  constructors : String → Option EnumConstructor
  structs : String → Option StructDeclaration
  parameters : String → String → Option Nat
  returns : String → String → Bool

/-! ## Host results -/

/-- `_require_arity`. -/
def arityFault (name : String) (expected : Nat) (arguments : List Value) : Fault :=
  ⟨"KS3101", "'" ++ name ++ "' için " ++ toString expected ++ " argüman bekleniyor, " ++
    toString arguments.length ++ " verildi."⟩

/-- `len()`: the host counts up to the largest signed 64-bit integer. -/
def hostLength (n : Nat) : Except Fault Value := if (n : Int) ≤ intMax then .ok (.int n)
  else .error ⟨"OverflowError", "cannot fit 'int' into an index-sized integer"⟩

/-- `_result_ok`. -/
def resultOk (value : Value) : Value := .enum "Result" "Ok" value.asPayload []

/-- `_result_error`. -/
def resultError (message : String) : Value := .enum "Result" "Err" (some (.error message)) []

/-- `EnumValue("Option", "Some", value)`. -/
def optionSome (value : Value) : Value := .enum "Option" "Some" value.asPayload []

/-- `EnumValue("Option", "None")`. -/
def optionNone : Value := .enum "Option" "None" none []

end Koschei.Values
