import Koschei.Core.Value

/-!
# Data

The values a program without capabilities prints, compares and keeps in its
containers, the floating-point numbers apart: the scalars, `Error` values, and
the containers built from them to any depth. A struct and an enum value carry
the texts of their type arguments, as in the interpreter.

`KsValue` is a datum as the interpreter can hold it: every Int is in the signed
64-bit range, and the keys of a dictionary and the fields of a record are
distinct at every depth.
-/

namespace Koschei

/-- A value without floating-point numbers, references and capabilities. -/
inductive Datum where
  | unit
  | bool (b : Bool)
  | int (i : Int)
  | str (s : String)
  | error (message : String)
  | list (items : List Datum)
  | map (entries : List (String × Datum))
  | struct (typeName : String) (fields : List (String × Datum)) (typeArguments : List String)
  | enum (enumName variant : String) (payload : Option Datum) (typeArguments : List String)
  deriving BEq, Inhabited

namespace Datum

mutual
/-- Ints are in range, and keys and fields are distinct. -/
def Valid : Datum → Prop
  | .unit | .bool _ | .str _ | .error _ => True
  | .int i => InRange i
  | .list items => ValidItems items
  | .map entries => (entries.map fst).Nodup ∧ ValidEntries entries
  | .struct _ fields _ => (fields.map fst).Nodup ∧ ValidEntries fields
  | .enum _ _ payload _ => ValidPayload payload

def ValidItems : List Datum → Prop
  | [] => True
  | item :: items => Valid item ∧ ValidItems items

def ValidEntries : List (String × Datum) → Prop
  | [] => True
  | (_, item) :: entries => Valid item ∧ ValidEntries entries

def ValidPayload : Option Datum → Prop
  | none => True
  | some item => Valid item
end

end Datum

/-- A datum as the interpreter holds it. -/
structure KsValue where
  datum : Datum
  valid : datum.Valid

end Koschei
