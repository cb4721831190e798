import Koschei.Core.Value

/-!
# The host language's operators on values

The lanes written in the host language use its own `==`, `+`, `<` and `bool()`
wherever the language does not prescribe an Int rule. These are defined here
once, for the value shapes of `Value`: booleans count as integers, strings and
lists concatenate and compare lexicographically, dictionaries compare without
regard to order, and records compare field by field.

Floating-point arithmetic and the default text of opaque host objects are not
prescribed: they come from a `Host`.
-/

namespace Koschei

/-- A host number: an integer of any size or a double. -/
inductive Num where
  | int (i : Int)
  | float (bits : BitVec 64)
  deriving BEq, DecidableEq

/-- The four host operators on numbers. -/
inductive ArithOp where
  | add | sub | mul | div
  deriving BEq, DecidableEq

/-- The four host orderings. -/
inductive CompareOp where
  | lt | le | gt | ge
  deriving BEq, DecidableEq

/-- What is taken from the host as it is: arithmetic in which a double takes
part, the text of doubles and of opaque objects, and which characters are
upper-case letters. -/
structure Host where
  arith : ArithOp → Num → Num → Except Fault Value
  compare : CompareOp → Num → Num → Bool
  equal : Num → Num → Bool
  negate : BitVec 64 → BitVec 64
  isZero : BitVec 64 → Bool
  floatText : BitVec 64 → String
  objectText : Value → String
  isUpper : Char → Bool

namespace Value

/-- The number a value is for the host's arithmetic: a boolean is 0 or 1. -/
def num? : Value → Option Num
  | .bool b => some (.int (if b then 1 else 0))
  | .int i => some (.int i)
  | .float bits => some (.float bits)
  | _ => none

/-- The count a value is where the host repeats a sequence. -/
def index? : Value → Option Int
  | .bool b => some (if b then 1 else 0)
  | .int i => some i
  | _ => none

end Value

namespace Host

variable (host : Host)

/-- `bool(value)`. -/
def truthy : Value → Bool
  | .bool b => b
  | .int i => i != 0
  | .float bits => !host.isZero bits
  | .str s => s != ""
  | .list items => !items.isEmpty
  | .map entries => !entries.isEmpty
  | _ => true

/-- Equality of host numbers. -/
def equalNum : Num → Num → Bool
  | .int i, .int j => i == j
  | a, b => host.equal a b

def lookup (entries : List (String × Value)) (key : String) : Option Value :=
  (entries.find? fun entry => entry.1 == key).map snd

mutual
/-- `left == right`. -/
def equalValue : Value → Value → Bool
  | .unit, .unit => true
  | .str s, .str t => s == t
  | .error m, .error n => m == n
  | .list xs, .list ys => equalList xs ys
  | .map xs, .map ys => xs.length == ys.length && containedIn xs ys
  | .struct n xs ts, .struct m ys us =>
    n == m && (xs.length == ys.length && containedIn xs ys) && ts == us
  | .enum n v p ts, .enum m w q us =>
    n == m && v == w && equalPayload p q && ts == us
  | .function k n, .function l m => k == l && n == m
  | .module k, .module l => k == l
  | .constructor n, .constructor m => n == m
  | .member r n, .member q m => equalValue r q && n == m
  | .object a, .object b => a == b
  | .noPayload, .noPayload => true
  | left, right =>
    match left.num?, right.num? with
    | some a, some b => host.equalNum a b
    | _, _ => false

def equalList : List Value → List Value → Bool
  | [], [] => true
  | x :: xs, y :: ys => equalValue x y && equalList xs ys
  | _, _ => false

/-- Every entry has an equal entry under the same key on the other side. -/
def containedIn : List (String × Value) → List (String × Value) → Bool
  | [], _ => true
  | (key, x) :: xs, ys =>
    (match lookup ys key with
      | some y => equalValue x y
      | none => false) && containedIn xs ys

def equalPayload : Option Value → Option Value → Bool
  | none, none => true
  | some p, some q => equalValue p q
  | _, _ => false
end

/-- Integer arithmetic as the host does it: without bounds, with a true quotient. -/
def arithNum (op : ArithOp) : Num → Num → Except Fault Value
  | .int i, .int j =>
    match op with
    | .add => .ok (.int (i + j))
    | .sub => .ok (.int (i - j))
    | .mul => .ok (.int (i * j))
    | .div => host.arith .div (.int i) (.int j)
  | a, b => host.arith op a b

/-- Repetition of a sequence; a negative count gives the empty sequence. -/
def repeatList {α : Type} (items : List α) (count : Int) : List α :=
  (replicate count.toNat items).flatten

/-- `left + right`, `left - right`, `left * right` and `left / right`. -/
def arithValue (op : ArithOp) (left right : Value) : Except Fault Value :=
  match left.num?, right.num? with
  | some a, some b => host.arithNum op a b
  | _, _ =>
    match op, left, right with
    | .add, .str s, .str t => .ok (.str (s ++ t))
    | .add, .list xs, .list ys => .ok (.list (xs ++ ys))
    | .mul, .str s, count | .mul, count, .str s =>
      match count.index? with
      | some n => .ok (.str (ofList (repeatList s.toList n)))
      | none => .error .typeError
    | .mul, .list xs, count | .mul, count, .list xs =>
      match count.index? with
      | some n => .ok (.list (repeatList xs n))
      | none => .error .typeError
    | _, _, _ => .error .typeError

/-- An ordering applied to two elements of an ordered type. -/
def applyCompare {α : Type} [LT α] [DecidableLT α] (op : CompareOp) (a b : α) : Bool :=
  match op with
  | .lt => decide (a < b)
  | .le => !decide (b < a)
  | .gt => decide (b < a)
  | .ge => !decide (a < b)

def compareNum (op : CompareOp) : Num → Num → Bool
  | .int i, .int j => applyCompare op i j
  | a, b => host.compare op a b

mutual
/-- `left < right` and the other three orderings. -/
def compareValue (op : CompareOp) : Value → Value → Except Fault Bool
  | .str s, .str t => .ok (applyCompare op s t)
  | .list xs, .list ys => compareList op xs ys
  | left, right =>
    match left.num?, right.num? with
    | some a, some b => .ok (host.compareNum op a b)
    | _, _ => .error .typeError

/-- The first differing elements decide; without one, the lengths do. -/
def compareList (op : CompareOp) : List Value → List Value → Except Fault Bool
  | [], [] => .ok (applyCompare op 0 0)
  | [], _ :: _ => .ok (applyCompare op 0 1)
  | _ :: _, [] => .ok (applyCompare op 1 0)
  | x :: xs, y :: ys =>
    if host.equalValue x y then compareList op xs ys else compareValue op x y
end

/-- `-value`. -/
def negateValue (value : Value) : Except Fault Value := match value.num? with
  | some (.int i) => .ok (.int (-i))
  | some (.float bits) => .ok (.float (host.negate bits))
  | none => .error .typeError

end Host

end Koschei
