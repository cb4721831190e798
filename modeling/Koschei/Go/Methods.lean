import Koschei.Go.Equality
import Koschei.Types.Text
import Koschei.Lib.Trimming
import Koschei.Lib.StableSort
import Mathlib.Data.List.Infix

/-!
# Methods of values in the interpreter and in the Go binary

`_invoke_member` of the interpreter and `ksCallValueMethod` of the Go runtime on
Strings, Lists and Maps. The two libraries differ in what they take for white
space (`str.strip` also removes U+001C to U+001F), in what they read as a number
(`int` takes every decimal digit of Unicode, underscores between digits and
numbers of any size, and refuses more than 4300 digits), in what they hold to be
equal, and in the order of Ints, which the Go runtime compares as floating-point
numbers. `CallAgrees` holds exactly when none of these differences shows.

Which characters are decimal digits is a table of the host, of which only the
ASCII part is assumed.
-/

namespace Koschei

open Lib

/-- The methods of values that both runtimes have. -/
inductive Method where
  | length | toInt | trim | contains | split | join | get | push | set | keys | sort
  deriving DecidableEq

/-! ## Texts -/

/-- The sign of a written number and what follows it. -/
def signed : List Char → Bool × List Char
  | '-' :: rest => (true, rest)
  | '+' :: rest => (false, rest)
  | rest => (false, rest)

/-- A magnitude with its sign. -/
def withSign (negative : Bool) (n : Nat) : Int := if negative then -n else n

def numberOf (digits : List Nat) : Nat := digits.foldl (fun n d => 10 * n + d) 0

/-- The parts of a text between the occurrences of a separator, which is not empty: the
characters of an occurrence still to be passed over, and the part read so far. -/
def splitAt (separator : List Char) : (text : List Char) → (skip : Nat) → (part : List Char) →
    List (List Char)
  | [], _, part => [part]
  | _ :: text, skip + 1, part => splitAt separator text skip part
  | c :: text, 0, part =>
    if separator.isPrefixOf (c :: text) then
      part :: splitAt separator text (separator.length - 1) []
    else splitAt separator text 0 (part ++ [c])

/-- `text.split(separator)`, and `strings.Split` as well. -/
def splitText (text separator : String) : List String :=
  (splitAt separator.toList text.toList 0 []).map ofList

/-- `needle in text`, and `strings.Contains` as well. -/
def textContains (text needle : String) : Bool := decide (needle.toList <:+: text.toList)

/-- An entry of a table replaced at its place, or added at the end. -/
def setEntry {α : Type} : List (String × α) → String → α → List (String × α)
  | [], key, value => [(key, value)]
  | (other, old) :: entries, key, value =>
    if other = key then (key, value) :: entries
    else (other, old) :: setEntry entries key value

/-! ## The interpreter -/

/-- What the interpreter's methods use of the host: the values of decimal digits, of which
`_` and the other ASCII characters have none, and `str`. -/
structure HostLibrary where
  digit : Char → Option Nat
  digit_ascii : ∀ c, c.toNat < 128 → digit c = if c.isDigit then some (c.toNat - 48) else none
  str : Datum → String
  str_text : ∀ s, str (.str s) = s

/-- The most digits `int` reads. -/
def maxStrDigits : Nat := 4300

namespace Datum

section Interpreter

variable (host : HostLibrary)

/-- The digits `int` reads: single underscores stand between digits. -/
def digitsOf : List Char → Option (List Nat)
  | [] => none
  | [c] => (host.digit c).map ([·])
  | c :: '_' :: rest => do
    let d ← host.digit c
    return d :: (← digitsOf rest)
  | c :: rest => do
    let d ← host.digit c
    return d :: (← digitsOf rest)

/-- `int(text)` of a stripped text; `none` is a `ValueError`. -/
def int? (text : List Char) : Option Int := match digitsOf host (signed text).2 with
  | none => none
  | some digits =>
    if maxStrDigits < digits.length then none
    else some (withSign (signed text).1 (numberOf digits))

def textToInt (receiver : String) : Datum := match int? host (strip receiver.toList) with
  | some i => .int i
  | none => .error ("Int dönüşümü başarısız: " ++ receiver)

def textSplit (receiver : String) (separator : Datum) : Datum := match separator with
  | .str separator =>
    if separator = "" then .error "String.split() ayıracı boş olamaz"
    else .list ((splitText receiver separator).map .str)
  | _ => .error "String.split() ayıracı String olmalıdır"

/-- The texts of a list of nothing but texts. -/
def texts? : List Datum → Option (List String)
  | [] => some []
  | .str s :: items => (texts? items).map (s :: ·)
  | _ :: _ => none

/-- The numbers of a list of nothing but Ints. -/
def ints? : List Datum → Option (List Int)
  | [] => some []
  | .int i :: items => (ints? items).map (i :: ·)
  | _ :: _ => none

def textJoin (receiver : String) (values : Datum) : Datum := match values with
  | .list values =>
    match texts? values with
    | some texts => .str (receiver.intercalate texts)
    | none => .error "String.join() yalnızca String öğeleri birleştirir"
  | _ => .error "String.join() bir List bekler"

/-- `List.get`, which answers with an Option. -/
def listGet (items : List Datum) (index : Datum) : Datum := match index with
  | .int i =>
    if i < 0 ∨ items.length ≤ i then .enum "Option" "None" none []
    else .enum "Option" "Some" items[i.toNat]? []
  | _ => .error "Liste indeksi Int olmalıdır"

def listSort (items : List Datum) : Datum := if items.isEmpty then .list []
  else
    match ints? items, texts? items with
    | some ints, _ => .list ((sortByKey id ints).map .int)
    | none, some texts => .list ((sortByKey id texts).map .str)
    | none, none =>
      .error "List.sort() yalnızca homojen String veya sayısal öğeleri sıralar"

/-- A method of Maps that takes a key. -/
def withKey (key : Datum) (use : String → Datum) : Datum := match key with
  | .str key => use key
  | _ => .error "Map anahtarı String olmalıdır"

def mapGet (entries : List (String × Datum)) (key : Datum) : Datum := withKey key fun key =>
    match entries.lookup key with
    | some item => item
    | none => .error ("Map anahtarı bulunamadı: " ++ key)

/-- `_invoke_member`; `none` is a runtime fault, of a wrong number of arguments or of a value
without the method. -/
def invokeMember (receiver : Datum) (method : Method) (arguments : List Datum) : Option Datum :=
  match receiver, method, arguments with
  | .str s, .length, [] => some (.int s.length)
  | .str s, .toInt, [] => some (textToInt host s)
  | .str s, .contains, [needle] => some (.bool (textContains s (host.str needle)))
  | .str s, .trim, [] => some (.str (ofList (strip s.toList)))
  | .str s, .split, [separator] => some (textSplit s separator)
  | .str s, .join, [values] => some (textJoin s values)
  | .list items, .length, [] => some (.int items.length)
  | .list items, .get, [index] => some (listGet items index)
  | .list items, .push, [item] => some (.list (items ++ [item]))
  | .list items, .contains, [item] => some (.bool (items.any fun x => hostEqual x item))
  | .list items, .sort, [] => some (listSort items)
  | .map entries, .get, [key] => some (mapGet entries key)
  | .map entries, .set, [key, item] =>
    some (withKey key fun key => .map (setEntry entries key item))
  | .map entries, .keys, [] => some (.list (entries.map fun entry => .str entry.1))
  | .map entries, .contains, [key] =>
    some (withKey key fun key => .bool (entries.lookup key).isSome)
  | _, _, _ => none

end Interpreter

end Datum

/-! ## The Go runtime -/

namespace Go

/-- `unicode.IsSpace`. -/
def isSpace (c : Char) : Bool := let n := c.toNat
  (0x09 ≤ n && n ≤ 0x0d) || n == 0x20 || n == 0x85 || n == 0xa0 || n == 0x1680 ||
    (0x2000 ≤ n && n ≤ 0x200a) || n == 0x2028 || n == 0x2029 || n == 0x202f || n == 0x205f ||
    n == 0x3000

/-- `strings.TrimSpace`. -/
def trimSpace (text : List Char) : List Char := trim isSpace text

/-- One digit of `strconv.ParseUint` in base 10: the number so far must fit 64 bits. -/
def parseDigit (n : Nat) (c : Char) : Option Nat := if c.isDigit then
    let next := 10 * n + (c.toNat - 48)
    if 2 ^ 64 ≤ next then none else some next
  else none

/-- `strconv.ParseUint(text, 10, 64)`. -/
def parseUint (text : List Char) : Option Nat :=
  if text = [] then none else text.foldlM parseDigit 0

/-- `strconv.ParseInt(text, 10, 64)`. -/
def parseInt (text : List Char) : Option Int := match parseUint (signed text).2 with
  | none => none
  | some n =>
    if (signed text).1 = false ∧ 2 ^ 63 ≤ n then none
    else if (signed text).1 = true ∧ 2 ^ 63 < n then none
    else some (withSign (signed text).1 n)

def ksLength : GoValue → GoValue
  | .string s => .int64 (Int64.ofInt s.length)
  | .slice items => .int64 (Int64.ofInt items.length)
  | _ => .error "KS1301: 'length' yalnızca String veya List üzerinde çağrılabilir"

def ksToInt : GoValue → GoValue
  | .string item =>
    match parseInt (trimSpace item.toList) with
    | some i => .int64 (Int64.ofInt i)
    | none => .error ("Int dönüşümü başarısız: " ++ item)
  | _ => .error "KS1301: 'to_int' yalnızca String üzerinde çağrılabilir"

def ksContains (isPrint : Char → Bool) (value needle : GoValue) : GoValue := match value with
  | .string item => .bool (textContains item (ksToString isPrint needle))
  | .slice items => .bool (items.any fun candidate => ksEq candidate needle)
  | .ksMap _ values =>
    match needle with
    | .string key => .bool (values.lookup key).isSome
    | _ => .error "Map anahtarı String olmalıdır"
  | _ => .error "KS1301: 'contains' bu değer üzerinde çağrılamaz"

def ksTrim : GoValue → GoValue
  | .string item => .string (ofList (trimSpace item.toList))
  | _ => .error "KS1301: 'trim' yalnızca String üzerinde çağrılabilir"

def ksSplit (value separator : GoValue) : GoValue := match value, separator with
  | .string text, .string separator =>
    if separator = "" then .error "String.split() ayıracı boş olamaz"
    else .slice ((splitText text separator).map .string)
  | .string _, _ => .error "String.split() ayıracı String olmalıdır"
  | _, _ => .error "String.split() yalnızca String üzerinde çağrılabilir"

/-- The texts of a slice of nothing but texts. -/
def texts? : List GoValue → Option (List String)
  | [] => some []
  | .string s :: items => (texts? items).map (s :: ·)
  | _ :: _ => none

/-- The numbers of a slice of nothing but Ints. -/
def ints? : List GoValue → Option (List Int64)
  | [] => some []
  | .int64 i :: items => (ints? items).map (i :: ·)
  | _ :: _ => none

def ksJoin (separator values : GoValue) : GoValue := match separator, values with
  | .string separator, .slice values =>
    match texts? values with
    | some texts => .string (separator.intercalate texts)
    | none => .error "String.join() yalnızca String öğeleri birleştirir"
  | .string _, _ => .error "String.join() bir List bekler"
  | _, _ => .error "String.join() yalnızca String üzerinde çağrılabilir"

/-- `ksListGet` as the ergonomics layer replaces it. -/
def ksListGet (value index : GoValue) : GoValue := match value, index with
  | .slice items, .int64 position =>
    if position.toInt < 0 ∨ items.length ≤ position.toInt then .ksEnum "Option" "None" none
    else .ksEnum "Option" "Some" items[position.toInt.toNat]?
  | .slice _, _ => .error "Liste indeksi Int olmalıdır"
  | _, _ => .error "List.get() bir List bekler"

def ksListPush (value item : GoValue) : GoValue := match value with
  | .slice items => .slice (items ++ [item])
  | _ => .error "List.push() bir List bekler"

/-- The conversion `float64(integer)`: 53 binary digits. -/
def float64 (i : Int) : Int := roundInt 53 i

def ksListSort (value : GoValue) : GoValue := match value with
  | .slice items =>
    if items.isEmpty then .slice []
    else
      match texts? items, ints? items with
      | some texts, _ => .slice ((sortByKey id texts).map .string)
      | none, some ints => .slice ((sortByKey (fun i => float64 i.toInt) ints).map .int64)
      | none, none =>
        .error "List.sort() yalnızca homojen String veya sayısal öğeleri sıralar"
  | _ => .error "List.sort() bir List bekler"

/-- A function of the runtime that takes a Map and a key. -/
def withMapKey (name : String) (value key : GoValue)
    (use : List String → List (String × GoValue) → String → GoValue) : GoValue :=
  match value, key with
  | .ksMap keys values, .string key => use keys values key
  | .ksMap _ _, _ => .error "Map anahtarı String olmalıdır"
  | _, _ => .error ("Map." ++ name ++ "() bir Map bekler")

def ksMapGet (value key : GoValue) : GoValue := withMapKey "get" value key fun _ values key =>
    match values.lookup key with
    | some item => item
    | none => .error ("Map anahtarı bulunamadı: " ++ key)

def ksMapSet (value key item : GoValue) : GoValue :=
  withMapKey "set" value key fun keys values key =>
    .ksMap (if (values.lookup key).isSome then keys else keys ++ [key]) (setEntry values key item)

def ksMapKeys : GoValue → GoValue
  | .ksMap keys _ => .slice (keys.map .string)
  | _ => .error "Map.keys() bir Map bekler"

def methodName : Method → String
  | .length => "length" | .toInt => "to_int" | .trim => "trim" | .contains => "contains"
  | .split => "split" | .join => "join" | .get => "get" | .push => "push" | .set => "set"
  | .keys => "keys" | .sort => "sort"

/-- The answer to a wrong number of arguments. -/
def arityError (method : Method) (takes : String) : GoValue :=
  .error ("KS4003: " ++ methodName method ++ " " ++ takes)

def noArgument (method : Method) (arguments : List GoValue) (use : GoValue) : GoValue :=
  match arguments with
  | [] => use
  | _ => arityError method "argüman almaz"

def oneArgument (method : Method) (arguments : List GoValue) (use : GoValue → GoValue) : GoValue :=
  match arguments with
  | [argument] => use argument
  | _ => arityError method "bir argüman alır"

def twoArguments (method : Method) (arguments : List GoValue)
    (use : GoValue → GoValue → GoValue) : GoValue :=
  match arguments with
  | [first, second] => use first second
  | _ => arityError method "iki argüman alır"

/-- `ksCallValueMethod`. -/
def ksCallValueMethod (isPrint : Char → Bool) (receiver : GoValue) (method : Method)
    (arguments : List GoValue) : GoValue :=
  match receiver, method with
  | .string _, .length => noArgument method arguments (ksLength receiver)
  | .string _, .toInt => noArgument method arguments (ksToInt receiver)
  | .string _, .contains => oneArgument method arguments (ksContains isPrint receiver)
  | .string _, .trim => noArgument method arguments (ksTrim receiver)
  | .string _, .split => oneArgument method arguments (ksSplit receiver)
  | .string _, .join => oneArgument method arguments (ksJoin receiver)
  | .slice _, .length => noArgument method arguments (ksLength receiver)
  | .slice _, .get => oneArgument method arguments (ksListGet receiver)
  | .slice _, .push => oneArgument method arguments (ksListPush receiver)
  | .slice _, .contains => oneArgument method arguments (ksContains isPrint receiver)
  | .slice _, .sort => noArgument method arguments (ksListSort receiver)
  | .ksMap _ _, .get => oneArgument method arguments (ksMapGet receiver)
  | .ksMap _ _, .set => twoArguments method arguments (ksMapSet receiver)
  | .ksMap _ _, .keys => noArgument method arguments (ksMapKeys receiver)
  | .ksMap _ _, .contains => oneArgument method arguments (ksContains isPrint receiver)
  | _, _ => .error ("KS3101: Bu değer üzerinde '" ++ methodName method ++ "' metodu yok")

end Go

end Koschei
