import Koschei.Core.Host

/-!
# Values of the native MIR lane

The native MIR runtime keeps its own representation of values: a List is a
tuple, a Map its entries in insertion order, a struct its fields in the sealed
order, an enum value carries no type arguments, and the references to
functions, modules and builtins are records of their own. Its operators are the
host's operators on these representations, under two layers that add the
language's Int rules: checked division, and the checks for the signed 64-bit
range.
-/

namespace Koschei.Native

/-- A value of the native lane. -/
inductive NValue where
  | unit
  | bool (b : Bool)
  | int (i : Int)
  | float (bits : BitVec 64)
  | str (s : String)
  | error (message : String)
  | tuple (items : List NValue)
  | map (entries : List (String × NValue))
  | struct (typeName : String) (fields : List (String × NValue))
  | enum (enumName variant : String) (payload : Option NValue)
  | function (name moduleKey : String)
  | module (key : String)
  | builtin (name : String)
  | object (address : Nat)
  | noPayload
  deriving BEq, Inhabited

namespace NValue

/-- `isinstance(value, _ErrorValue)`. -/
def isError : NValue → Bool
  | .error _ => true
  | _ => false

/-- The number a value is for the host's arithmetic. -/
def num? : NValue → Option Num
  | .bool b => some (.int (if b then 1 else 0))
  | .int i => some (.int i)
  | .float bits => some (.float bits)
  | _ => none

/-- The count a value is where the host repeats a sequence. -/
def index? : NValue → Option Int
  | .bool b => some (if b then 1 else 0)
  | .int i => some i
  | _ => none

def ofScalar : Value → Option NValue
  | .unit => some .unit
  | .bool b => some (.bool b)
  | .int i => some (.int i)
  | .float bits => some (.float bits)
  | .str s => some (.str s)
  | .error message => some (.error message)
  | _ => none

end NValue

/-! ## The host's operators -/

section Operators

variable (host : Host)

mutual
/-- `left == right`: Maps and structs compare by their entries in order. -/
def equalValue : NValue → NValue → Bool
  | .unit, .unit => true
  | .str s, .str t => s == t
  | .error m, .error n => m == n
  | .tuple xs, .tuple ys => equalList xs ys
  | .map xs, .map ys => equalEntries xs ys
  | .struct n xs, .struct m ys => n == m && equalEntries xs ys
  | .enum n v p, .enum m w q => n == m && v == w && equalPayload p q
  | .function n k, .function m l => n == m && k == l
  | .module k, .module l => k == l
  | .builtin n, .builtin m => n == m
  | .object a, .object b => a == b
  | .noPayload, .noPayload => true
  | left, right =>
    match left.num?, right.num? with
    | some a, some b => host.equalNum a b
    | _, _ => false

def equalList : List NValue → List NValue → Bool
  | [], [] => true
  | x :: xs, y :: ys => equalValue x y && equalList xs ys
  | _, _ => false

def equalEntries : List (String × NValue) → List (String × NValue) → Bool
  | [], [] => true
  | (k, x) :: xs, (l, y) :: ys => k == l && equalValue x y && equalEntries xs ys
  | _, _ => false

def equalPayload : Option NValue → Option NValue → Bool
  | none, none => true
  | some p, some q => equalValue p q
  | _, _ => false
end

def ofNumber : Value → NValue
  | .int i => .int i
  | .float bits => .float bits
  | _ => .unit

/-- `left + right`, `left - right`, `left * right` and `left / right`. -/
def arithValue (op : ArithOp) (left right : NValue) : Except Fault NValue :=
  match left.num?, right.num? with
  | some a, some b => (host.arithNum op a b).map ofNumber
  | _, _ =>
    match op, left, right with
    | .add, .str s, .str t => .ok (.str (s ++ t))
    | .add, .tuple xs, .tuple ys => .ok (.tuple (xs ++ ys))
    | .mul, .str s, count | .mul, count, .str s =>
      match count.index? with
      | some n => .ok (.str (ofList (Host.repeatList s.toList n)))
      | none => .error .typeError
    | .mul, .tuple xs, count | .mul, count, .tuple xs =>
      match count.index? with
      | some n => .ok (.tuple (Host.repeatList xs n))
      | none => .error .typeError
    | _, _, _ => .error .typeError

mutual
/-- `left < right` and the other three orderings. -/
def compareValue (op : CompareOp) : NValue → NValue → Except Fault Bool
  | .str s, .str t => .ok (Host.applyCompare op s t)
  | .tuple xs, .tuple ys => compareList op xs ys
  | left, right =>
    match left.num?, right.num? with
    | some a, some b => .ok (host.compareNum op a b)
    | _, _ => .error .typeError

def compareList (op : CompareOp) : List NValue → List NValue → Except Fault Bool
  | [], [] => .ok (Host.applyCompare op 0 0)
  | [], _ :: _ => .ok (Host.applyCompare op 0 1)
  | _ :: _, [] => .ok (Host.applyCompare op 1 0)
  | x :: xs, y :: ys =>
    if equalValue host x y then compareList op xs ys else compareValue op x y
end

/-! ## The runtime's operators -/

/-- A failure the native runtime itself raises. -/
def runtimeError (message : String) : Fault := ⟨"MirNativeRuntimeError", message⟩

/-- The operators of `_SUPPORTED_BINARY`, division included. -/
def supportedBinary : List BinaryOperator := [.add, .sub, .mul, .eq, .ne, .lt, .le, .gt, .ge, .div]

/-- `_binary` of the native runtime. -/
def plainBinary (operator : BinaryOperator) (left right : NValue) : Except Fault NValue :=
  match operator with
  | .add => arithValue host .add left right
  | .sub => arithValue host .sub left right
  | .mul => arithValue host .mul left right
  | .eq => .ok (.bool (equalValue host left right))
  | .ne => .ok (.bool (!equalValue host left right))
  | .lt => (compareValue host .lt left right).map .bool
  | .le => (compareValue host .le left right).map .bool
  | .gt => (compareValue host .gt left right).map .bool
  | .ge => (compareValue host .ge left right).map .bool
  | operator => .error (runtimeError ("unsupported binary operator '" ++ operator.text ++ "'"))

/-- `abs(left) // abs(right)`, negated when the signs differ. -/
def checkedQuotient (left right : Int) : Int :=
  let quotient : Int := ((left.natAbs / right.natAbs : Nat) : Int)
  if decide (left < 0) != decide (right < 0) then -quotient else quotient

/-- `_binary` of the integer-division layer. -/
def divisionBinary (operator : BinaryOperator) (left right : NValue) : Except Fault NValue :=
  if operator ≠ .div then plainBinary host operator left right
  else if equalValue host right (.int 0) then .ok (.error "Sıfıra bölme")
  else
    match left, right with
    | .int i, .int j =>
      if i = intMin ∧ j = -1 then
        .ok (.error
          "KS3501: Int taşması: '/' işlemi işaretli 64-bit aralığın dışına çıktı.")
      else .ok (.int (checkedQuotient i j))
    | left, right => arithValue host .div left right

/-- The Int result of `+`, `-` and `*`, without bounds. -/
def wideResult : BinaryOperator → Int → Int → Option Int
  | .add, i, j => some (i + j)
  | .sub, i, j => some (i - j)
  | .mul, i, j => some (i * j)
  | _, _, _ => none

/-- `_binary` of the type-integrity layer, the one that runs. -/
def binary (operator : BinaryOperator) (left right : NValue) : Except Fault NValue :=
  match left, right with
  | .error message, _ => .ok (.error message)
  | _, .error message => .ok (.error message)
  | .int i, .int j =>
    match wideResult operator i j with
    | some result =>
      if intMin ≤ result ∧ result ≤ intMax then .ok (.int result)
      else .ok (.error ("KS3501: Int overflow: '" ++ operator.text ++
        "' exceeded signed 64-bit range"))
    | none => divisionBinary host operator (.int i) (.int j)
  | left, right => divisionBinary host operator left right

/-- `_unary` of the native runtime. -/
def plainUnary (operator : UnaryOperator) (operand : NValue) : Except Fault NValue :=
  match operator, operand with
  | .not, .bool b => .ok (.bool !b)
  | .not, _ => .error (runtimeError "unary ! requires Bool")
  | .neg, .int i => .ok (.int (-i))
  | .neg, .float bits => .ok (.float (host.negate bits))
  | .neg, _ => .error (runtimeError "unary - requires a number")

/-- `_unary` of the type-integrity layer, the one that runs. -/
def unary (operator : UnaryOperator) (operand : NValue) : Except Fault NValue :=
  match operator, operand with
  | _, .error message => .ok (.error message)
  | .neg, .int i =>
    if i = intMin then
      .ok (.error "KS3501: Int overflow: unary '-' exceeded signed 64-bit range")
    else plainUnary host .neg (.int i)
  | operator, operand => plainUnary host operator operand

end Operators

end Koschei.Native
