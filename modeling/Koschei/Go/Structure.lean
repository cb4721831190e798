import Koschei.Go.Agreement
import Koschei.Lib.Lookup

/-!
# Equality as the structure of values

The structure of a value is what it is made of, whatever the order of its keys
and the types written at it. To have the same structure is an equivalence, and
`ksEq` decides it. The host's `==`, which the interpreter, the List methods and
the MIR executor use, differs where a Bool stands against an Int or where equal
contents carry different type arguments.
-/

namespace Koschei

/-- What a value is made of. -/
inductive Shape where
  | unit
  | bool (b : Bool)
  | int (i : Int)
  | str (s : String)
  | error (message : String)
  | list (items : List Shape)
  | map (entries : String → Option Shape)
  | struct (typeName : String) (fields : String → Option Shape)
  | enum (enumName variant : String) (payload : Option Shape)

namespace Datum

mutual
def shape : Datum → Shape
  | .unit => .unit
  | .bool b => .bool b
  | .int i => .int i
  | .str s => .str s
  | .error message => .error message
  | .list items => .list (shapes items)
  | .map entries => .map (shapeAt entries)
  | .struct typeName fields _ => .struct typeName (shapeAt fields)
  | .enum enumName variant payload _ => .enum enumName variant (shapePayload payload)

def shapes : List Datum → List Shape
  | [] => []
  | item :: items => shape item :: shapes items

def shapeAt : List (String × Datum) → String → Option Shape
  | [], _ => none
  | (other, item) :: entries, key => if key = other then some (shape item) else shapeAt entries key

def shapePayload : Option Datum → Option Shape
  | none => none
  | some item => some (shape item)
end

/-- The values have the same structure. -/
def Same (x y : Datum) : Prop := x.shape = y.shape

theorem shapeAt_eq (entries : List (String × Datum)) (key : String) :
    shapeAt entries key = (entries.lookup key).map shape := by
  induction entries with
  | nil => rfl
  | cons entry entries ih =>
    obtain ⟨other, item⟩ := entry
    rw [shapeAt, ih, lookup_cons]
    by_cases same : key = other
    · simp [same]
    · rw [if_neg same, beq_eq_false_iff_ne.mpr same]

/-! ## `ksEq` decides it -/

/-- Equal when type arguments count for nothing, but a Bool is no number. -/
abbrev alike (x y : Datum) : Bool := looselyEqual x y && sameKinds x y

theorem sameEntries_iff {xs ys : List (String × Datum)} (first : (xs.map fst).Nodup)
    (second : (ys.map fst).Nodup) : shapeAt xs = shapeAt ys ↔ xs.length = ys.length ∧
      ∀ entry ∈ xs, (ys.lookup entry.1).map shape = some entry.2.shape := by
  rw [← Lib.lookup_map_congr_iff first second, funext_iff]
  simp only [shapeAt_eq]

mutual
theorem alike_iff : ∀ x y : Datum, x.Valid → y.Valid → (alike x y = true ↔ Same x y)
  | .unit, y, _, _ => by cases y <;> simp [looselyEqual, sameKinds, Same, shape]
  | .bool _, y, _, _ => by cases y <;> simp [looselyEqual, sameKinds, Same, shape]
  | .int _, y, _, _ => by cases y <;> simp [looselyEqual, sameKinds, Same, shape]
  | .str _, y, _, _ => by cases y <;> simp [looselyEqual, sameKinds, Same, shape]
  | .error _, y, _, _ => by cases y <;> simp [looselyEqual, sameKinds, Same, shape]
  | .list xs, y, first, second => by
    cases y with
    | list ys =>
      have items := alikeItems_iff xs ys first second
      simpa [looselyEqual, sameKinds, Same, shape] using items
    | unit | bool | int | str | error | map | struct | enum =>
      simp [looselyEqual, Same, shape]
  | .map xs, y, first, second => by
    cases y with
    | map ys =>
      have entries := alikeEntries_iff xs ys first.2 second.2
      simp only [alike, looselyEqual, sameKinds, Same, shape, Shape.map.injEq,
        sameEntries_iff first.1 second.1, ← entries, and_eq_true, beq_iff_eq, and_assoc]
    | unit | bool | int | str | error | list | struct | enum =>
      simp [looselyEqual, Same, shape]
  | .struct n xs _, y, first, second => by
    cases y with
    | struct m ys _ =>
      have entries := alikeEntries_iff xs ys first.2 second.2
      simp only [alike, looselyEqual, sameKinds, Same, shape, Shape.struct.injEq,
        sameEntries_iff first.1 second.1, ← entries, and_eq_true, beq_iff_eq, and_assoc]
    | unit | bool | int | str | error | list | map | enum =>
      simp [looselyEqual, Same, shape]
  | .enum _ _ p _, y, first, second => by
    cases y with
    | enum _ _ q _ =>
      have payload := alikePayload_iff p q first second
      simp only [alike, looselyEqual, sameKinds, Same, shape, Shape.enum.injEq, ← payload,
        and_eq_true, beq_iff_eq, and_assoc]
    | unit | bool | int | str | error | list | map | struct =>
      simp [looselyEqual, Same, shape]

theorem alikeItems_iff : ∀ xs ys : List Datum, ValidItems xs → ValidItems ys →
    ((looselyEqualItems xs ys = true ∧ sameKindsItems xs ys = true) ↔ shapes xs = shapes ys)
  | [], ys, _, _ => by cases ys <;> simp [looselyEqualItems, sameKindsItems, shapes]
  | x :: xs, [], _, _ => by simp [looselyEqualItems, shapes]
  | x :: xs, y :: ys, first, second => by
    have head := alike_iff x y first.1 second.1
    have tail := alikeItems_iff xs ys first.2 second.2
    simp only [alike, and_eq_true, Same] at head
    simp only [looselyEqualItems, sameKindsItems, shapes, cons.injEq, ← head, ← tail, and_eq_true]
    tauto

theorem alikeEntries_iff : ∀ xs ys : List (String × Datum), ValidEntries xs → ValidEntries ys →
    ((looselyEqualEntries xs ys = true ∧ sameKindsEntries xs ys = true) ↔
      ∀ entry ∈ xs, (ys.lookup entry.1).map shape = some entry.2.shape)
  | [], ys, _, _ => by simp [looselyEqualEntries, sameKindsEntries]
  | (key, x) :: xs, ys, first, second => by
    have tail := alikeEntries_iff xs ys first.2 second
    rw [forall_mem_cons, ← tail, looselyEqualEntries, sameKindsEntries]
    cases found : ys.lookup key with
    | none => simp
    | some y =>
      have head := alike_iff x y first.1 (valid_of_lookup second found)
      simp only [alike, and_eq_true, Same] at head
      simp only [and_eq_true, map_some, some.injEq, eq_comm (a := y.shape), ← head]
      tauto

theorem alikePayload_iff : ∀ p q : Option Datum, ValidPayload p → ValidPayload q →
    ((looselyEqualPayload p q = true ∧ sameKindsPayload p q = true) ↔
      shapePayload p = shapePayload q)
  | none, q, _, _ => by cases q <;> simp [looselyEqualPayload, sameKindsPayload, shapePayload]
  | some x, none, _, _ => by simp [looselyEqualPayload, shapePayload]
  | some x, some y, first, second => by
    have inner := alike_iff x y first second
    simpa [looselyEqualPayload, sameKindsPayload, shapePayload, Same] using inner
end

/-! ## The equalities of the code -/

/-- `_binary` of the interpreter and of the MIR executor, on `==`. -/
def binaryEqual (left right : Datum) : Datum := if left.isError then left
  else if right.isError then right
  else .bool (hostEqual left right)

/-- `List.unique`. -/
def unique (receiver : List Datum) : List Datum := receiver.foldl (fun result candidate =>
    if result.any fun existing => hostEqual existing candidate then result
    else result ++ [candidate]) []

/-- `List.first_difference`, of lists whose first `index` items are equal. -/
def firstDifference (index : Nat) : List Datum → List Datum → Datum
  | x :: receiver, y :: other =>
    if !hostEqual x y then .enum "Option" "Some" (some (.int index)) []
    else firstDifference (index + 1) receiver other
  | [], [] => .enum "Option" "None" none []
  | _, _ => .enum "Option" "Some" (some (.int index)) []

/-- The five equalities answer by the structure of the values. -/
structure Structural (x y : Datum) : Prop where
  binary : binaryEqual x y = .bool true ↔ Same x y
  contains : ∀ host : HostLibrary,
    invokeMember host (.list [x]) .contains [y] = some (.bool true) ↔ Same x y
  unique : unique [x, y] = [x] ↔ Same x y
  firstDifference : firstDifference 0 [x] [y] = .enum "Option" "None" none [] ↔ Same x y
  go : Go.ksEq x.represent y.represent = true ↔ Same x y

/-- The equalities answer by the structure exactly when, of two values with the same contents,
the type arguments are the same if and only if no Bool stands against an Int. -/
theorem structural_iff {x y : Datum} (first : x.Valid) (second : y.Valid)
    (left : x.isError = false) (right : y.isError = false) : Structural x y ↔
      (looselyEqual x y = true → (sameArguments x y = true ↔ sameKinds x y = true)) := by
  have go : Go.ksEq x.represent y.represent = true ↔ Same x y := by
    rw [ksEq_represent x y first second]
    exact alike_iff x y first second
  have whole : (hostEqual x y = true ↔ Same x y) ↔
      (looselyEqual x y = true → (sameArguments x y = true ↔ sameKinds x y = true)) := by
    rw [hostEqual_eq, ← alike_iff x y first second, alike, and_eq_true, and_eq_true]
    tauto
  rw [← whole]
  constructor
  · intro structural
    have binary := structural.binary
    simpa [binaryEqual, left, right] using binary
  · intro host
    constructor
    · simp [binaryEqual, left, right, host]
    · simp [invokeMember, host]
    · simp [unique, ← host]
    · cases equal : hostEqual x y <;> simp [firstDifference, equal, ← host]
    · exact go

theorem structural_boxes : Structural (.struct "Box" [("value", .bool true)] ["Bool"])
    (.struct "Box" [("value", .bool true)] ["Bool"]) := by
  have valid : (Datum.struct "Box" [("value", .bool true)] ["Bool"]).Valid := by
    simp [Valid, ValidEntries]
  exact (structural_iff valid valid rfl rfl).mpr (by simp [sameArguments, sameArgumentsEntries,
    sameKinds, sameKindsEntries])

/-- A Bool and an Int are equal in the interpreter, and not in the Go binary. -/
theorem bool_equals_int : unique [.int 1, .bool true] = [.int 1] ∧
    Go.ksEq (Datum.int 1).represent (Datum.bool true).represent = false ∧
    ¬ Structural (.int 1) (.bool true) := by
  have kept : unique [.int 1, .bool true] = [.int 1] := by
    simp [unique, hostEqual, ofBool]
  refine ⟨kept, by simp [represent, Go.ksEq], fun structural => ?_⟩
  have same := structural.unique.mp kept
  simp [Same, shape] at same

end Datum

end Koschei
