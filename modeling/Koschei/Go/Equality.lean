import Koschei.Go.Render

/-!
# Equality in the interpreter and in the Go binary

The interpreter compares values with the host's `==`: a Bool is the number 0 or
1, Maps and structs compare by key, and struct and enum values also compare the
texts of their type arguments. `ksEq` of the Go runtime compares a Bool with
Bools only, and knows no type arguments.

Both are the same *loose* comparison with one more demand each: the host's
`==` that the type arguments are the same at every depth, `ksEq` that no Bool
stands against an Int at any depth.
-/

namespace Koschei

/-! ## The host's equality -/

namespace Datum

/-- The number a Bool is for the host. -/
def ofBool (b : Bool) : Int := if b then 1 else 0

mutual
/-- `left == right` of the host. -/
def hostEqual : Datum → Datum → Bool
  | .unit, .unit => true
  | .bool a, .bool b => a == b
  | .bool a, .int j => ofBool a == j
  | .int i, .bool b => i == ofBool b
  | .int i, .int j => i == j
  | .str s, .str t => s == t
  | .error m, .error n => m == n
  | .list xs, .list ys => hostEqualItems xs ys
  | .map xs, .map ys => xs.length == ys.length && hostEqualEntries xs ys
  | .struct n xs as, .struct m ys bs =>
    n == m && (xs.length == ys.length && hostEqualEntries xs ys) && as == bs
  | .enum n v p as, .enum m w q bs => n == m && v == w && hostEqualPayload p q && as == bs
  | _, _ => false

def hostEqualItems : List Datum → List Datum → Bool
  | [], [] => true
  | x :: xs, y :: ys => hostEqual x y && hostEqualItems xs ys
  | _, _ => false

def hostEqualEntries : List (String × Datum) → List (String × Datum) → Bool
  | [], _ => true
  | (key, x) :: xs, ys =>
    (match ys.lookup key with
      | some y => hostEqual x y
      | none => false) && hostEqualEntries xs ys

def hostEqualPayload : Option Datum → Option Datum → Bool
  | none, none => true
  | some x, some y => hostEqual x y
  | _, _ => false
end

end Datum

/-! ## The equality of the Go runtime -/

namespace Go

mutual
/-- `ksEq`. -/
def ksEq : GoValue → GoValue → Bool
  | .ksEnum n v p, .ksEnum m w q => n == m && v == w && ksEqPayload p q
  | .error m, .error n => m == n
  | .slice xs, .slice ys => ksEqItems xs ys
  | .ksMap _ xs, .ksMap _ ys => xs.length == ys.length && ksEqEntries xs ys
  | .ksStruct n _ xs, .ksStruct m _ ys =>
    n == m && (xs.length == ys.length && ksEqEntries xs ys)
  | .string s, .string t => s == t
  | .bool a, .bool b => a == b
  | .int64 i, .int64 j => i == j
  | .unit, .unit => true
  | _, _ => false

def ksEqItems : List GoValue → List GoValue → Bool
  | [], [] => true
  | x :: xs, y :: ys => ksEq x y && ksEqItems xs ys
  | _, _ => false

def ksEqEntries : List (String × GoValue) → List (String × GoValue) → Bool
  | [], _ => true
  | (key, x) :: xs, ys =>
    (match ys.lookup key with
      | some y => ksEq x y
      | none => false) && ksEqEntries xs ys

def ksEqPayload : Option GoValue → Option GoValue → Bool
  | none, none => true
  | some x, some y => ksEq x y
  | _, _ => false
end

end Go

/-! ## What the two have in common -/

namespace Datum

mutual
/-- Equal when a Bool counts as a number and type arguments count for nothing. -/
def looselyEqual : Datum → Datum → Bool
  | .unit, .unit => true
  | .bool a, .bool b => a == b
  | .bool a, .int j => ofBool a == j
  | .int i, .bool b => i == ofBool b
  | .int i, .int j => i == j
  | .str s, .str t => s == t
  | .error m, .error n => m == n
  | .list xs, .list ys => looselyEqualItems xs ys
  | .map xs, .map ys => xs.length == ys.length && looselyEqualEntries xs ys
  | .struct n xs _, .struct m ys _ =>
    n == m && (xs.length == ys.length && looselyEqualEntries xs ys)
  | .enum n v p _, .enum m w q _ => n == m && v == w && looselyEqualPayload p q
  | _, _ => false

def looselyEqualItems : List Datum → List Datum → Bool
  | [], [] => true
  | x :: xs, y :: ys => looselyEqual x y && looselyEqualItems xs ys
  | _, _ => false

def looselyEqualEntries : List (String × Datum) → List (String × Datum) → Bool
  | [], _ => true
  | (key, x) :: xs, ys =>
    (match ys.lookup key with
      | some y => looselyEqual x y
      | none => false) && looselyEqualEntries xs ys

def looselyEqualPayload : Option Datum → Option Datum → Bool
  | none, none => true
  | some x, some y => looselyEqual x y
  | _, _ => false
end

mutual
/-- Where two values correspond, no Bool stands against an Int. -/
def sameKinds : Datum → Datum → Bool
  | .bool _, .int _ => false
  | .int _, .bool _ => false
  | .list xs, .list ys => sameKindsItems xs ys
  | .map xs, .map ys => sameKindsEntries xs ys
  | .struct _ xs _, .struct _ ys _ => sameKindsEntries xs ys
  | .enum _ _ p _, .enum _ _ q _ => sameKindsPayload p q
  | _, _ => true

def sameKindsItems : List Datum → List Datum → Bool
  | x :: xs, y :: ys => sameKinds x y && sameKindsItems xs ys
  | _, _ => true

def sameKindsEntries : List (String × Datum) → List (String × Datum) → Bool
  | [], _ => true
  | (key, x) :: xs, ys =>
    (match ys.lookup key with
      | some y => sameKinds x y
      | none => true) && sameKindsEntries xs ys

def sameKindsPayload : Option Datum → Option Datum → Bool
  | some x, some y => sameKinds x y
  | _, _ => true
end

mutual
/-- Where two struct or enum values correspond, their type arguments are the same. -/
def sameArguments : Datum → Datum → Bool
  | .list xs, .list ys => sameArgumentsItems xs ys
  | .map xs, .map ys => sameArgumentsEntries xs ys
  | .struct _ xs as, .struct _ ys bs => sameArgumentsEntries xs ys && as == bs
  | .enum _ _ p as, .enum _ _ q bs => sameArgumentsPayload p q && as == bs
  | _, _ => true

def sameArgumentsItems : List Datum → List Datum → Bool
  | x :: xs, y :: ys => sameArguments x y && sameArgumentsItems xs ys
  | _, _ => true

def sameArgumentsEntries : List (String × Datum) → List (String × Datum) → Bool
  | [], _ => true
  | (key, x) :: xs, ys =>
    (match ys.lookup key with
      | some y => sameArguments x y
      | none => true) && sameArgumentsEntries xs ys

def sameArgumentsPayload : Option Datum → Option Datum → Bool
  | some x, some y => sameArguments x y
  | _, _ => true
end

/-- Two demands on a pair and two on the rest, regrouped. -/
theorem and_regroup (a b c d : Bool) : ((a && b) && (c && d)) = ((a && c) && (b && d)) := by
  cases a <;> cases b <;> cases c <;> cases d <;> rfl

mutual
theorem hostEqual_eq : ∀ x y : Datum, hostEqual x y = (looselyEqual x y && sameArguments x y)
  | .unit, y => by cases y <;> simp [hostEqual, looselyEqual, sameArguments]
  | .bool _, y => by cases y <;> simp [hostEqual, looselyEqual, sameArguments]
  | .int _, y => by cases y <;> simp [hostEqual, looselyEqual, sameArguments]
  | .str _, y => by cases y <;> simp [hostEqual, looselyEqual, sameArguments]
  | .error _, y => by cases y <;> simp [hostEqual, looselyEqual, sameArguments]
  | .list xs, y => by
    cases y <;> simp [hostEqual, looselyEqual, sameArguments, hostEqualItems_eq xs]
  | .map xs, y => by
    cases y <;>
      simp [hostEqual, looselyEqual, sameArguments, hostEqualEntries_eq xs, Bool.and_assoc]
  | .struct _ xs _, y => by
    cases y <;>
      simp [hostEqual, looselyEqual, sameArguments, hostEqualEntries_eq xs, Bool.and_assoc]
  | .enum _ _ p _, y => by
    cases y <;> simp [hostEqual, looselyEqual, sameArguments, hostEqualPayload_eq p, Bool.and_assoc]

theorem hostEqualItems_eq : ∀ xs ys : List Datum,
    hostEqualItems xs ys = (looselyEqualItems xs ys && sameArgumentsItems xs ys)
  | [], ys => by cases ys <;> simp [hostEqualItems, looselyEqualItems, sameArgumentsItems]
  | x :: xs, [] => by simp [hostEqualItems, looselyEqualItems]
  | x :: xs, y :: ys => by
    rw [hostEqualItems, looselyEqualItems, sameArgumentsItems, hostEqual_eq x y,
      hostEqualItems_eq xs ys, and_regroup]

theorem hostEqualEntries_eq : ∀ xs ys : List (String × Datum),
    hostEqualEntries xs ys = (looselyEqualEntries xs ys && sameArgumentsEntries xs ys)
  | [], ys => by simp [hostEqualEntries, looselyEqualEntries, sameArgumentsEntries]
  | (key, x) :: xs, ys => by
    rw [hostEqualEntries, looselyEqualEntries, sameArgumentsEntries, hostEqualEntries_eq xs ys]
    cases ys.lookup key with
    | none => simp
    | some y => simp only [hostEqual_eq x y, and_regroup]

theorem hostEqualPayload_eq : ∀ p q : Option Datum,
    hostEqualPayload p q = (looselyEqualPayload p q && sameArgumentsPayload p q)
  | none, q => by cases q <;> simp [hostEqualPayload, looselyEqualPayload, sameArgumentsPayload]
  | some x, none => by simp [hostEqualPayload, looselyEqualPayload]
  | some x, some y => by
    rw [hostEqualPayload, looselyEqualPayload, sameArgumentsPayload, hostEqual_eq x y]
end

/-! ### The values that stand for data -/

theorem ofInt_beq {i j : Int} (first : InRange i) (second : InRange j) :
    (Int64.ofInt i == Int64.ofInt j) = (i == j) := by
  rw [Bool.eq_iff_iff, beq_iff_eq, beq_iff_eq]
  constructor
  · intro same
    rw [← bmod_of_inRange first, ← bmod_of_inRange second, same]
  · rintro rfl
    rfl

theorem lookup_representEntries (entries : List (String × Datum)) (key : String) :
    (representEntries entries).lookup key = (entries.lookup key).map represent := by
  induction entries with
  | nil => rfl
  | cons entry entries ih =>
    obtain ⟨other, item⟩ := entry
    rw [representEntries, lookup_cons, lookup_cons]
    cases key == other with
    | true => rfl
    | false => exact ih

theorem length_representEntries (entries : List (String × Datum)) :
    (representEntries entries).length = entries.length := by
  induction entries with
  | nil => rfl
  | cons entry entries ih =>
    obtain ⟨key, item⟩ := entry
    simp [representEntries, ih]

theorem valid_of_lookup {entries : List (String × Datum)} {key : String} {item : Datum}
    (valid : ValidEntries entries) (found : entries.lookup key = some item) : item.Valid := by
  induction entries with
  | nil => cases found
  | cons entry entries ih =>
    obtain ⟨other, first⟩ := entry
    rw [lookup_cons] at found
    cases same : key == other with
    | true =>
      rw [same] at found
      exact some.inj found ▸ valid.1
    | false =>
      rw [same] at found
      exact ih valid.2 found

mutual
theorem ksEq_represent : ∀ x y : Datum, x.Valid → y.Valid →
    Go.ksEq x.represent y.represent = (looselyEqual x y && sameKinds x y)
  | .unit, y, _, _ => by cases y <;> simp [represent, Go.ksEq, looselyEqual, sameKinds]
  | .bool _, y, _, _ => by cases y <;> simp [represent, Go.ksEq, looselyEqual, sameKinds]
  | .int i, y, first, second => by
    cases y with
    | int j => simp [represent, Go.ksEq, looselyEqual, sameKinds, ofInt_beq first second]
    | unit | bool | str | error | list | map | struct | enum =>
      simp [represent, Go.ksEq, looselyEqual, sameKinds]
  | .str _, y, _, _ => by cases y <;> simp [represent, Go.ksEq, looselyEqual, sameKinds]
  | .error _, y, _, _ => by cases y <;> simp [represent, Go.ksEq, looselyEqual, sameKinds]
  | .list xs, y, first, second => by
    cases y with
    | list ys =>
      simp [represent, Go.ksEq, looselyEqual, sameKinds, ksEqItems_represent xs ys first second]
    | unit | bool | int | str | error | map | struct | enum =>
      simp [represent, Go.ksEq, looselyEqual]
  | .map xs, y, first, second => by
    cases y with
    | map ys =>
      simp [represent, Go.ksEq, looselyEqual, sameKinds, length_representEntries,
        ksEqEntries_represent xs ys first.2 second.2, Bool.and_assoc]
    | unit | bool | int | str | error | list | struct | enum =>
      simp [represent, Go.ksEq, looselyEqual]
  | .struct _ xs _, y, first, second => by
    cases y with
    | struct _ ys _ =>
      simp [represent, Go.ksEq, looselyEqual, sameKinds, length_representEntries,
        ksEqEntries_represent xs ys first.2 second.2, Bool.and_assoc]
    | unit | bool | int | str | error | list | map | enum =>
      simp [represent, Go.ksEq, looselyEqual]
  | .enum _ _ p _, y, first, second => by
    cases y with
    | enum _ _ q _ =>
      simp [represent, Go.ksEq, looselyEqual, sameKinds,
        ksEqPayload_represent p q first second, Bool.and_assoc]
    | unit | bool | int | str | error | list | map | struct =>
      simp [represent, Go.ksEq, looselyEqual]

theorem ksEqItems_represent : ∀ xs ys : List Datum, ValidItems xs → ValidItems ys →
    Go.ksEqItems (representItems xs) (representItems ys) =
      (looselyEqualItems xs ys && sameKindsItems xs ys)
  | [], ys, _, _ => by
    cases ys <;> simp [representItems, Go.ksEqItems, looselyEqualItems, sameKindsItems]
  | x :: xs, [], _, _ => by simp [representItems, Go.ksEqItems, looselyEqualItems]
  | x :: xs, y :: ys, first, second => by
    rw [representItems, representItems, Go.ksEqItems, looselyEqualItems, sameKindsItems,
      ksEq_represent x y first.1 second.1, ksEqItems_represent xs ys first.2 second.2,
      and_regroup]

theorem ksEqEntries_represent : ∀ xs ys : List (String × Datum), ValidEntries xs →
    ValidEntries ys → Go.ksEqEntries (representEntries xs) (representEntries ys) =
      (looselyEqualEntries xs ys && sameKindsEntries xs ys)
  | [], ys, _, _ => by
    simp [representEntries, Go.ksEqEntries, looselyEqualEntries, sameKindsEntries]
  | (key, x) :: xs, ys, first, second => by
    rw [representEntries, Go.ksEqEntries, looselyEqualEntries, sameKindsEntries,
      ksEqEntries_represent xs ys first.2 second, lookup_representEntries]
    cases found : ys.lookup key with
    | none => simp
    | some y =>
      simp only [map_some, ksEq_represent x y first.1 (valid_of_lookup second found), and_regroup]

theorem ksEqPayload_represent : ∀ p q : Option Datum, ValidPayload p → ValidPayload q →
    Go.ksEqPayload (representPayload p) (representPayload q) =
      (looselyEqualPayload p q && sameKindsPayload p q)
  | none, q, _, _ => by
    cases q <;> simp [representPayload, Go.ksEqPayload, looselyEqualPayload, sameKindsPayload]
  | some x, none, _, _ => by simp [representPayload, Go.ksEqPayload, looselyEqualPayload]
  | some x, some y, first, second => by
    rw [representPayload, representPayload, Go.ksEqPayload, looselyEqualPayload,
      sameKindsPayload, ksEq_represent x y first second]
end

end Datum

end Koschei
