import Koschei.Go.Agreement
import Koschei.Lib.Checks

/-!
# Financial decimals

A decimal is a signed 64-bit number of atoms at an explicit scale. The interpreter reads
its text with a regular expression and computes with unbounded integers; the Go runtime
checks the text by hand and computes with 64 bits, testing for overflow first. They agree
but for one thing: `int` refuses texts of more than 4300 digits with an error of its own,
where the Go runtime says that the atoms overflow.
-/

namespace Koschei.Financial

open Lib

/-! ## The interpreter -/

/-- `MAX_SCALE`. -/
def maxScale : Int := 18

/-- `DecimalValue`. -/
structure DecimalValue where
  atoms : Int
  scale : Int
  inRange : InRange atoms
  scaled : 0 ≤ scale ∧ scale ≤ maxScale
  deriving DecidableEq

/-- A `FinancialDecimalError`, and an error of the Go runtime: its code and text. -/
structure DecimalError where
  code : String
  text : String
  deriving DecidableEq

/-- What the interpreter raises: an error of decimals, or the `ValueError` of `int`. -/
inductive Failure where
  | decimal (error : DecimalError)
  | valueError
  deriving DecidableEq

/-- `_DECIMAL_RE` behind its `-?`. -/
def matchesUnsigned (unsigned : List Char) : Bool := let whole := unsigned.takeWhile isDigit
  (whole = ['0'] || (whole ≠ [] && whole.head? ≠ some '0')) &&
    match unsigned.dropWhile isDigit with
    | [] => true
    | first :: digits => first = '.' && digits ≠ [] && digits.all isDigit

/-- The text behind its minus sign, if it has one. -/
def unsignedPart (text : List Char) : List Char := if text.head? = some '-' then text.tail else text

/-- `_DECIMAL_RE.fullmatch`. -/
def decimalRe (text : List Char) : Bool := matchesUnsigned (unsignedPart text)

/-- `unsigned.split(".", 1)`, with nothing behind a text without a point. -/
def splitPoint (unsigned : List Char) : List Char × List Char :=
  (unsigned.takeWhile (· ≠ '.'), (unsigned.dropWhile (· ≠ '.')).tail)

/-- `int` of ASCII digits. -/
def intOfDigits (digits : List Char) : Option Nat :=
  if maxStrDigits < digits.length then none else some (numberOf (digits.map (·.toNat - 48)))

/-- The digits of the atoms: the fraction is filled up to the scale. -/
def atomDigits (whole fraction : List Char) (scale : Int) : List Char :=
  whole ++ fraction ++ replicate (scale.toNat - fraction.length) '0'

/-- `parse_decimal`. -/
def parseDecimal (raw : String) (scale : Int) : Except Failure DecimalValue :=
  if scaled : 0 ≤ scale ∧ scale ≤ maxScale then
    if decimalRe raw.toList then
      let negative : Bool := raw.toList.head? = some '-'
      let (whole, fraction) := splitPoint (unsignedPart raw.toList)
      if (fraction.length : Int) > scale then
        .error (.decimal ⟨"KS3801", "decimal input has more fractional digits than the declared scale; implicit rounding is forbidden"⟩)
      else
        match intOfDigits (atomDigits whole fraction scale) with
        | none => .error .valueError
        | some magnitude =>
          let atoms := withSign negative magnitude
          if inRange : InRange atoms then .ok ⟨atoms, scale, inRange, scaled⟩
          else .error (.decimal ⟨"KS3803", "decimal atoms overflow signed int64"⟩)
    else
      .error (.decimal ⟨"KS3801", "invalid decimal text; exponent, whitespace, plus sign and non-canonical leading zeroes are forbidden"⟩)
  else .error (.decimal ⟨"KS3801", "decimal scale must be 0..18"⟩)

/-- `str` of an integer. -/
def digitsOfInt (value : Int) : List Char := (Datum.decimal value).toList

/-- `decimal_text`. -/
def decimalText (value : DecimalValue) : List Char := let negative : Bool := value.atoms < 0
  let digits := if negative then (digitsOfInt value.atoms).tail else digitsOfInt value.atoms
  let rendered := if value.scale = 0 then digits
    else
      let digits := digits.leftpad (value.scale.toNat + 1) '0'
      digits.take (digits.length - value.scale.toNat) ++ '.' ::
        digits.drop (digits.length - value.scale.toNat)
  if negative && value.atoms ≠ 0 then '-' :: rendered else rendered

/-- The result of an operation on decimals of one scale, which must fit 64 bits. -/
def bounded (atoms : Int) (like : DecimalValue) (overflow : String) : Except Failure DecimalValue :=
  if inRange : InRange atoms then .ok ⟨atoms, like.scale, inRange, like.scaled⟩
  else .error (.decimal ⟨"KS3803", overflow⟩)

/-- `_same_scale`. -/
def sameScale (left right : DecimalValue) : Except Failure Unit :=
  raiseIf (left.scale ≠ right.scale)
    (.decimal ⟨"KS3802", "decimal scales differ; implicit rescaling is forbidden"⟩)

def addDecimal (left right : DecimalValue) : Except Failure DecimalValue := do
  sameScale left right
  bounded (left.atoms + right.atoms) left "decimal addition overflow"

def subDecimal (left right : DecimalValue) : Except Failure DecimalValue := do
  sameScale left right
  bounded (left.atoms - right.atoms) left "decimal subtraction overflow"

/-- `compare_decimal`. -/
def compareDecimal (left right : DecimalValue) : Except Failure Int := do
  sameScale left right
  .ok ((if left.atoms > right.atoms then 1 else 0) - (if left.atoms < right.atoms then 1 else 0))

/-! ## The Go runtime -/

/-- `KsDecimal`. -/
structure KsDecimal where
  atoms : Int64
  scale : Int64
  deriving DecidableEq

def ksIntMax : Int64 := Int64.ofInt intMax

def ksIntMin : Int64 := Int64.ofInt intMin

/-- `ksDecimalDigits`. -/
def ksDecimalDigits (text : List Char) : Bool := text ≠ [] && text.all isDigit

/-- The parts of a text in `ksDecimalParse`, `none` for a point with nothing behind it. -/
def ksParts (unsigned : List Char) : Option (List Char × List Char) := if '.' ∈ unsigned then
    if (splitPoint unsigned).2 = [] then none else some (splitPoint unsigned)
  else some (unsigned, [])

/-- `ksDecimalParse`. -/
def ksDecimalParse (raw : String) (scale : Int64) : Except DecimalError KsDecimal := do
  let text := raw.toList
  raiseIf (scale < 0 ∨ scale > 18) ⟨"KS3801", "decimal scale must be Int in 0..18"⟩
  raiseIf (text = [] ∨ Go.trimSpace text ≠ text ∨ text.head? = some '+')
    ⟨"KS3801", "invalid decimal text"⟩
  let unsigned := unsignedPart text
  raiseIf (unsigned = [] ∨ unsigned.count '.' > 1) ⟨"KS3801", "invalid decimal text"⟩
  match ksParts unsigned with
  | none => .error ⟨"KS3801", "invalid decimal text"⟩
  | some (whole, fraction) =>
    raiseIf (¬ ksDecimalDigits whole ∨ (fraction ≠ [] ∧ ¬ ksDecimalDigits fraction))
      ⟨"KS3801", "invalid decimal text"⟩
    raiseIf (whole.length > 1 ∧ whole.head? = some '0')
      ⟨"KS3801", "non-canonical leading zeroes are forbidden"⟩
    raiseIf ((fraction.length : Int) > scale.toInt)
      ⟨"KS3801", "implicit decimal rounding is forbidden"⟩
    let digits := atomDigits whole fraction scale.toInt
    match Go.parseInt (if text.head? = some '-' then '-' :: digits else digits) with
    | none => .error ⟨"KS3803", "decimal atoms overflow signed int64"⟩
    | some atoms => .ok ⟨Int64.ofInt atoms, scale⟩

/-- `ksDecimalFormat`; `strconv.FormatInt` writes integers as `str` does. -/
def ksDecimalFormat (value : KsDecimal) : List Char := let digits := digitsOfInt value.atoms.toInt
  let negative : Bool := digits.head? = some '-'
  let digits := if negative then digits.tail else digits
  let digits := if value.scale > 0 then
      let digits := if digits.length < value.scale.toInt.toNat + 1 then
          replicate (value.scale.toInt.toNat + 1 - digits.length) '0' ++ digits
        else digits
      digits.take (digits.length - value.scale.toInt.toNat) ++ '.' ::
        digits.drop (digits.length - value.scale.toInt.toNat)
    else digits
  if negative && value.atoms ≠ 0 then '-' :: digits else digits

/-- `ksDecimalPair`. -/
def ksDecimalPair (left right : KsDecimal) : Except DecimalError Unit :=
  raiseIf (left.scale ≠ right.scale)
    ⟨"KS3802", "decimal scales differ; implicit rescaling is forbidden"⟩

def ksDecimalAdd (left right : KsDecimal) : Except DecimalError KsDecimal := do
  ksDecimalPair left right
  raiseIf (right.atoms > 0 ∧ left.atoms > ksIntMax - right.atoms ∨
    right.atoms < 0 ∧ left.atoms < ksIntMin - right.atoms) ⟨"KS3803", "decimal addition overflow"⟩
  .ok ⟨left.atoms + right.atoms, left.scale⟩

def ksDecimalSub (left right : KsDecimal) : Except DecimalError KsDecimal := do
  ksDecimalPair left right
  raiseIf (right.atoms > 0 ∧ left.atoms < ksIntMin + right.atoms ∨
    right.atoms < 0 ∧ left.atoms > ksIntMax + right.atoms) ⟨"KS3803", "decimal subtraction overflow"⟩
  .ok ⟨left.atoms - right.atoms, left.scale⟩

def ksDecimalCmp (left right : KsDecimal) : Except DecimalError Int64 := do
  ksDecimalPair left right
  if left.atoms < right.atoms then .ok (-1)
  else if left.atoms > right.atoms then .ok 1
  else .ok 0

/-! ## The texts that both lanes read -/

/-- A canonical decimal behind its sign: a whole part without needless zeros, and a fraction. -/
structure Parts (unsigned whole fraction : List Char) : Prop where
  written : unsigned = whole ++ if fraction = [] then [] else '.' :: fraction
  nonempty : whole ≠ []
  wholeDigits : ∀ c ∈ whole, c.isDigit = true
  leading : whole.head? = some '0' → whole = ['0']
  fractionDigits : ∀ c ∈ fraction, c.isDigit = true

section Parts

variable {unsigned whole fraction : List Char}

theorem not_point_of_digit {c : Char} (digit : c.isDigit = true) : c ≠ '.' := by
  rintro rfl
  exact absurd digit (by decide)

/-- The regular expression matches the canonical decimals. -/
theorem matchesUnsigned_iff :
    matchesUnsigned unsigned = true ↔ ∃ whole fraction, Parts unsigned whole fraction := by
  constructor
  · intro matched
    unfold matchesUnsigned at matched
    obtain ⟨isWhole, rest⟩ := Bool.and_eq_true_iff.mp matched
    have digits : ∀ c ∈ unsigned.takeWhile isDigit, c.isDigit = true := fun c inside =>
      List.mem_takeWhile_imp inside
    have nonempty : unsigned.takeWhile isDigit ≠ [] := by
      intro empty
      rw [empty] at isWhole
      cases isWhole
    have leading : (unsigned.takeWhile isDigit).head? = some '0' →
        unsigned.takeWhile isDigit = ['0'] := by
      intro zero
      rcases Bool.or_eq_true_iff.mp isWhole with alone | other
      · exact of_decide_eq_true alone
      · exact absurd zero (of_decide_eq_true (Bool.and_eq_true_iff.mp other).2)
    have parts := (List.takeWhile_append_dropWhile (p := isDigit) (l := unsigned)).symm
    split at rest
    · rename_i empty
      rw [empty] at parts
      exact ⟨_, [], parts, nonempty, digits, leading, fun c inside => by cases inside⟩
    · rename_i first fraction isRest
      simp only [and_eq_true, decide_eq_true_eq, all_eq_true] at rest
      obtain ⟨⟨rfl, some_digit⟩, all⟩ := rest
      rw [isRest] at parts
      exact ⟨_, fraction, by rw [if_neg some_digit]; exact parts, nonempty, digits, leading, all⟩
  · rintro ⟨whole, fraction, written, nonempty, isWhole, leading, isFraction⟩
    have stops : (if fraction = [] then [] else '.' :: fraction).takeWhile isDigit = [] := by
      split <;> rfl
    have rest : (if fraction = [] then [] else '.' :: fraction).dropWhile isDigit =
        if fraction = [] then [] else '.' :: fraction := by
      split <;> rfl
    unfold matchesUnsigned
    rw [written, List.takeWhile_append_of_pos isWhole, dropWhile_append_of_pos isWhole, stops,
      rest, append_nil]
    refine Bool.and_eq_true_iff.mpr ⟨Bool.or_eq_true_iff.mpr ?_, ?_⟩
    · by_cases zero : whole.head? = some '0'
      · exact .inl (decide_eq_true (leading zero))
      · exact .inr (Bool.and_eq_true_iff.mpr ⟨decide_eq_true nonempty, decide_eq_true zero⟩)
    · by_cases empty : fraction = []
      · rw [if_pos empty]
      · rw [if_neg empty]
        simp only [and_eq_true, decide_eq_true_eq, all_eq_true]
        exact ⟨⟨trivial, empty⟩, isFraction⟩

section

variable (parts : Parts unsigned whole fraction)

include parts

theorem Parts.splitPoint : splitPoint unsigned = (whole, fraction) := by
  have points : ∀ c ∈ whole, decide (c ≠ '.') = true := fun c inside =>
    decide_eq_true (not_point_of_digit (parts.wholeDigits c inside))
  unfold Financial.splitPoint
  rw [parts.written, List.takeWhile_append_of_pos points, dropWhile_append_of_pos points]
  split
  · rename_i empty
    rw [empty, List.takeWhile_nil, append_nil]
    rfl
  · show (whole ++ [], fraction) = _
    rw [append_nil]

theorem Parts.point_iff : '.' ∈ unsigned ↔ fraction ≠ [] := by
  have outside : '.' ∉ whole := fun inside => not_point_of_digit (parts.wholeDigits _ inside) rfl
  rw [parts.written, mem_append, or_iff_right outside]
  split
  · rename_i empty
    exact ⟨fun inside => (by cases inside), fun some_digit => absurd empty some_digit⟩
  · rename_i some_digit
    exact ⟨fun _ => some_digit, fun _ => mem_cons_self⟩

/-- The checks of the Go runtime let a canonical decimal pass. -/
theorem Parts.ksParts : ksParts unsigned = some (whole, fraction) := by
  unfold Financial.ksParts
  rw [parts.splitPoint]
  by_cases empty : fraction = []
  · rw [if_neg fun inside => parts.point_iff.mp inside empty]
    have written := parts.written
    rw [if_pos empty, append_nil] at written
    rw [written, empty]
  · rw [if_pos (parts.point_iff.mpr empty), if_neg empty]

theorem Parts.count_point : unsigned.count '.' ≤ 1 := by
  have none : ∀ digits : List Char, (∀ c ∈ digits, c.isDigit = true) → digits.count '.' = 0 :=
    fun digits all => count_eq_zero.mpr fun inside => not_point_of_digit (all _ inside) rfl
  rw [parts.written, count_append, none whole parts.wholeDigits]
  split
  · exact Nat.zero_le _
  · rw [count_cons_self, none fraction parts.fractionDigits]

theorem Parts.not_leading : ¬ (whole.length > 1 ∧ whole.head? = some '0') := by
  rintro ⟨long, zero⟩
  rw [parts.leading zero] at long
  exact Nat.lt_irrefl _ long

end

variable {text : List Char}

theorem digits_iff : ksDecimalDigits text = true ↔ text ≠ [] ∧ ∀ c ∈ text, c.isDigit = true := by
  unfold ksDecimalDigits
  rw [and_eq_true, decide_eq_true_eq, all_eq_true]

/-- What passes the checks of the Go runtime is a canonical decimal. -/
theorem parts_of_checks (split : ksParts unsigned = some (whole, fraction))
    (digits : ¬ (¬ ksDecimalDigits whole ∨ (fraction ≠ [] ∧ ¬ ksDecimalDigits fraction)))
    (leading : ¬ (whole.length > 1 ∧ whole.head? = some '0')) : Parts unsigned whole fraction := by
  obtain ⟨isWhole, isFraction⟩ := not_or.mp digits
  obtain ⟨nonempty, isWhole⟩ := digits_iff.mp (not_not.mp isWhole)
  have isFraction : ∀ c ∈ fraction, c.isDigit = true := by
    intro c inside
    have some_digit : fraction ≠ [] := ne_nil_of_mem inside
    exact (digits_iff.mp (not_not.mp fun fails => isFraction ⟨some_digit, fails⟩)).2 c inside
  have zero : whole.head? = some '0' → whole = ['0'] := by
    intro zero
    cases whole with
    | nil => cases zero
    | cons first others =>
      cases others with
      | nil =>
        cases zero
        rfl
      | cons second others =>
        refine absurd ⟨?_, zero⟩ leading
        rw [length_cons, length_cons]
        omega
  refine ⟨?_, nonempty, isWhole, zero, isFraction⟩
  unfold Financial.ksParts at split
  split at split
  · rename_i point
    split at split
    · cases split
    · rename_i some_digit
      obtain ⟨rfl, rfl⟩ := Prod.mk.inj (some.inj split)
      rw [if_neg (show ¬ (unsigned.dropWhile (· ≠ '.')).tail = [] from some_digit)]
      have rest : unsigned.dropWhile (· ≠ '.') = '.' :: (unsigned.dropWhile (· ≠ '.')).tail := by
        cases dropped : unsigned.dropWhile (· ≠ '.') with
        | nil =>
          have none := List.dropWhile_eq_nil_iff.mp dropped _ point
          exact absurd rfl (of_decide_eq_true none)
        | cons first others =>
          have isPoint := List.head?_dropWhile_not (fun c => decide (c ≠ '.')) unsigned
          rw [dropped] at isPoint
          have same : first = '.' := by simpa using isPoint
          rw [same]
          rfl
      exact (List.takeWhile_append_dropWhile (p := fun c => decide (c ≠ '.')) (l := unsigned)).symm.trans
        (congrArg (unsigned.takeWhile (· ≠ '.') ++ ·) rest)
  · rename_i noPoint
    obtain ⟨rfl, rfl⟩ := Prod.mk.inj (some.inj split)
    rw [if_pos rfl, append_nil]

/-- A canonical decimal has nothing but digits, a point and a sign. -/
theorem Parts.plain (parts : Parts (unsignedPart text) whole fraction) :
    ∀ c ∈ text, c.isDigit = true ∨ c = '.' ∨ c = '-' := by
  have unsigned : ∀ c ∈ unsignedPart text, c.isDigit = true ∨ c = '.' ∨ c = '-' := by
    intro c inside
    rw [parts.written, mem_append] at inside
    rcases inside with inside | inside
    · exact .inl (parts.wholeDigits c inside)
    · split at inside
      · cases inside
      · rcases mem_cons.mp inside with rfl | inside
        · exact .inr (.inl rfl)
        · exact .inl (parts.fractionDigits c inside)
  intro c inside
  unfold unsignedPart at unsigned
  split at unsigned
  · rename_i minus
    cases text with
    | nil => cases inside
    | cons first others =>
      cases minus
      rcases mem_cons.mp inside with rfl | inside
      · exact .inr (.inr rfl)
      · exact unsigned c inside
  · exact unsigned c inside

theorem not_goSpace {c : Char} (plain : c.isDigit = true ∨ c = '.' ∨ c = '-') :
    Go.isSpace c = false := by
  rcases plain with digit | rfl | rfl
  · rw [eq_false_iff]
    intro space
    have known := isSpace_of_goSpace c space
    rw [not_space_of_digit digit] at known
    cases known
  · decide
  · decide

/-- The first check of the Go runtime lets a canonical decimal pass. -/
theorem Parts.first_check (parts : Parts (unsignedPart text) whole fraction) :
    ¬ (text = [] ∨ Go.trimSpace text ≠ text ∨ text.head? = some '+') := by
  rintro (empty | trimmed | plus)
  · have written := parts.written
    rw [empty] at written
    exact parts.nonempty (append_eq_nil_iff.mp written.symm).1
  · refine trimmed ?_
    have clean : CleanEnds Go.isSpace text :=
      ⟨fun c first => not_goSpace (parts.plain c (List.mem_of_mem_head? first)),
        fun c last => not_goSpace (parts.plain c (List.mem_of_getLast? last))⟩
    have kept := @trim_append _ Go.isSpace [] text [] (forall_mem_nil _) clean (forall_mem_nil _)
    rwa [nil_append, append_nil] at kept
  · have isPlain := parts.plain '+' (List.mem_of_mem_head? plus)
    exact absurd isPlain (by decide)

theorem Parts.second_check (parts : Parts unsigned whole fraction) :
    ¬ (unsigned = [] ∨ unsigned.count '.' > 1) := by
  rintro (empty | twice)
  · have written := parts.written
    rw [empty] at written
    exact parts.nonempty (append_eq_nil_iff.mp written.symm).1
  · exact absurd parts.count_point (Nat.not_le_of_gt twice)

theorem Parts.digit_check (parts : Parts unsigned whole fraction) :
    ¬ (¬ ksDecimalDigits whole ∨ (fraction ≠ [] ∧ ¬ ksDecimalDigits fraction)) := by
  rintro (fails | ⟨some_digit, fails⟩)
  · exact fails (digits_iff.mpr ⟨parts.nonempty, parts.wholeDigits⟩)
  · exact fails (digits_iff.mpr ⟨some_digit, parts.fractionDigits⟩)

end Parts

/-! ## Reading -/

/-- What one lane returns stands for what the other returns, or both fail with one code. -/
def Agrees {α β : Type} (represent : α → β) : Except Failure α → Except DecimalError β → Prop
  | .ok result, .ok other => other = represent result
  | .error (.decimal error), .error other => error.code = other.code
  | _, _ => False

/-- The value of the Go runtime for a decimal. -/
def DecimalValue.represent (value : DecimalValue) : KsDecimal :=
  ⟨Int64.ofInt value.atoms, Int64.ofInt value.scale⟩

/-- Both lanes read a text at a scale alike. -/
def ParseAgrees (raw : String) (scale : Int64) : Prop :=
  Agrees DecimalValue.represent (parseDecimal raw scale.toInt) (ksDecimalParse raw scale)

/-- A text that both lanes would read, with more digits than `int` takes. -/
def Overlong (raw : String) (scale : Int64) : Prop :=
  (0 ≤ scale.toInt ∧ scale.toInt ≤ maxScale) ∧ ∃ whole fraction,
    Parts (unsignedPart raw.toList) whole fraction ∧ (fraction.length : Int) ≤ scale.toInt ∧
      (maxStrDigits : Int) < whole.length + scale.toInt

section Reading

variable {whole fraction : List Char} {scale : Int}

theorem length_atomDigits (fits : (fraction.length : Int) ≤ scale) :
    ((atomDigits whole fraction scale).length : Int) = whole.length + scale := by
  unfold atomDigits
  rw [length_append, length_append, length_replicate]
  omega

theorem digit_of_mem_atomDigits {unsigned : List Char} (parts : Parts unsigned whole fraction) :
    ∀ c ∈ atomDigits whole fraction scale, c.isDigit = true := by
  intro c inside
  unfold atomDigits at inside
  rcases mem_append.mp inside with inside | zero
  · rcases mem_append.mp inside with inside | inside
    · exact parts.wholeDigits c inside
    · exact parts.fractionDigits c inside
  · rw [(List.mem_replicate.mp zero).2]
    decide

/-- `ParseInt` of digits behind a sign is their number, if it fits. -/
theorem parseInt_digits {digits : List Char} (nonempty : digits ≠ [])
    (all : ∀ c ∈ digits, c.isDigit = true) (negative : Bool) :
    Go.parseInt (if negative then '-' :: digits else digits) =
      if InRange (withSign negative (numberOf (digits.map (·.toNat - 48)))) then
        some (withSign negative (numberOf (digits.map (·.toNat - 48))))
      else none := by
  have sign : signed (if negative then '-' :: digits else digits) = (negative, digits) := by
    cases negative with
    | true => rfl
    | false =>
      rw [if_neg false_ne_true]
      cases digits with
      | nil => exact absurd rfl nonempty
      | cons first others =>
        have isDigit := all first mem_cons_self
        unfold signed
        split
        · rename_i same
          cases same
          exact absurd isDigit (by decide)
        · rename_i same
          cases same
          exact absurd isDigit (by decide)
        · rfl
  have plain : PlainInt (if negative then '-' :: digits else digits) ↔
      InRange (withSign negative (numberOf (digits.map (·.toNat - 48)))) := by
    constructor
    · intro plain
      have range := plain.range
      rwa [sign] at range
    · intro range
      refine ⟨?_, ?_⟩ <;> rw [sign]
      · exact ⟨nonempty, all⟩
      · exact range
  by_cases range : InRange (withSign negative (numberOf (digits.map (·.toNat - 48))))
  · rw [if_pos range]
    exact (parseInt_eq_some _ _).mpr ⟨plain.mpr range, by rw [sign]⟩
  · rw [if_neg range]
    cases read : Go.parseInt (if negative then '-' :: digits else digits) with
    | none => rfl
    | some i => exact absurd (plain.mp ((parseInt_eq_some _ _).mp read).1) range

/-- The Go runtime refuses what is no canonical decimal. -/
theorem ksDecimalParse_refused {raw : String} {scale : Int64}
    (refused : ¬ ∃ whole fraction, Parts (unsignedPart raw.toList) whole fraction) :
    ∃ text, ksDecimalParse raw scale = .error ⟨"KS3801", text⟩ := by
  unfold ksDecimalParse
  dsimp only
  by_cases scaled : scale < 0 ∨ scale > 18
  · exact ⟨_, bind_raiseIf_of scaled⟩
  rw [bind_raiseIf scaled]
  by_cases first : raw.toList = [] ∨ Go.trimSpace raw.toList ≠ raw.toList ∨
      raw.toList.head? = some '+'
  · exact ⟨_, bind_raiseIf_of first⟩
  rw [bind_raiseIf first]
  by_cases second : unsignedPart raw.toList = [] ∨ (unsignedPart raw.toList).count '.' > 1
  · exact ⟨_, bind_raiseIf_of second⟩
  rw [bind_raiseIf second]
  cases split : ksParts (unsignedPart raw.toList) with
  | none => exact ⟨_, rfl⟩
  | some parts =>
    obtain ⟨whole, fraction⟩ := parts
    dsimp only
    by_cases digits : ¬ ksDecimalDigits whole ∨ (fraction ≠ [] ∧ ¬ ksDecimalDigits fraction)
    · exact ⟨_, bind_raiseIf_of digits⟩
    rw [bind_raiseIf digits]
    by_cases leading : whole.length > 1 ∧ whole.head? = some '0'
    · exact ⟨_, bind_raiseIf_of leading⟩
    exact absurd ⟨whole, fraction, parts_of_checks split digits leading⟩ refused

theorem scaled_iff {scale : Int64} :
    ¬ (scale < 0 ∨ scale > 18) ↔ 0 ≤ scale.toInt ∧ scale.toInt ≤ maxScale := by
  have zero : (0 : Int64).toInt = 0 := by decide
  have most : (18 : Int64).toInt = 18 := by decide
  rw [not_or, gt_iff_lt, Int64.lt_iff_toInt_lt, Int64.lt_iff_toInt_lt, zero, most, not_lt, not_lt]
  rfl

/-- The Go runtime reads a canonical decimal. -/
theorem ksDecimalParse_parts {raw : String} {scale : Int64}
    (scaled : 0 ≤ scale.toInt ∧ scale.toInt ≤ maxScale)
    (parts : Parts (unsignedPart raw.toList) whole fraction) :
    ksDecimalParse raw scale = if (fraction.length : Int) > scale.toInt then
        .error ⟨"KS3801", "implicit decimal rounding is forbidden"⟩
      else
        match Go.parseInt (if raw.toList.head? = some '-' then
            '-' :: atomDigits whole fraction scale.toInt
          else atomDigits whole fraction scale.toInt) with
        | none => .error ⟨"KS3803", "decimal atoms overflow signed int64"⟩
        | some atoms => .ok ⟨Int64.ofInt atoms, scale⟩ := by
  unfold ksDecimalParse
  dsimp only
  rw [bind_raiseIf (scaled_iff.mpr scaled), bind_raiseIf parts.first_check,
    bind_raiseIf parts.second_check, parts.ksParts]
  dsimp only
  rw [bind_raiseIf parts.digit_check, bind_raiseIf parts.not_leading]
  by_cases rounds : (fraction.length : Int) > scale.toInt
  · rw [bind_raiseIf_of rounds, if_pos rounds]
  · rw [bind_raiseIf rounds, if_neg rounds]

/-- **When both lanes read a text alike**: unless it has more digits than `int` takes. -/
theorem parseAgrees_iff (raw : String) (scale : Int64) :
    ParseAgrees raw scale ↔ ¬ Overlong raw scale := by
  unfold ParseAgrees parseDecimal
  by_cases scaled : 0 ≤ scale.toInt ∧ scale.toInt ≤ maxScale
  · rw [dif_pos scaled]
    by_cases canonical : ∃ whole fraction, Parts (unsignedPart raw.toList) whole fraction
    · obtain ⟨whole, fraction, parts⟩ := canonical
      have matched : decimalRe raw.toList = true := matchesUnsigned_iff.mpr ⟨_, _, parts⟩
      have digits := @digit_of_mem_atomDigits whole fraction scale.toInt _ parts
      have nonempty : atomDigits whole fraction scale.toInt ≠ [] := by
        intro empty
        unfold atomDigits at empty
        exact parts.nonempty (append_eq_nil_iff.mp (append_eq_nil_iff.mp empty).1).1
      rw [if_pos matched, parts.splitPoint, ksDecimalParse_parts scaled parts]
      dsimp only
      by_cases rounds : (fraction.length : Int) > scale.toInt
      · rw [if_pos rounds, if_pos rounds]
        refine iff_of_true rfl ?_
        rintro ⟨-, _, _, other, fits, -⟩
        have same := other.splitPoint.symm.trans parts.splitPoint
        cases same
        omega
      · rw [if_neg rounds, if_neg rounds]
        have length := @length_atomDigits whole fraction scale.toInt (by omega)
        have sign : (if raw.toList.head? = some '-' then '-' :: atomDigits whole fraction scale.toInt
            else atomDigits whole fraction scale.toInt) =
              if decide (raw.toList.head? = some '-') then '-' :: atomDigits whole fraction scale.toInt
              else atomDigits whole fraction scale.toInt := by
          simp only [decide_eq_true_eq]
        rw [sign, parseInt_digits nonempty digits]
        unfold intOfDigits
        by_cases long : maxStrDigits < (atomDigits whole fraction scale.toInt).length
        · rw [if_pos long]
          refine iff_of_false (fun agrees => agrees) (not_not.mpr ?_)
          exact ⟨scaled, whole, fraction, parts, by omega, by omega⟩
        · rw [if_neg long]
          refine iff_of_true ?_ ?_
          · dsimp only
            by_cases range : InRange (withSign (decide (raw.toList.head? = some '-'))
                (numberOf ((atomDigits whole fraction scale.toInt).map (·.toNat - 48))))
            · rw [dif_pos range, if_pos range]
              show KsDecimal.mk _ scale = KsDecimal.mk _ (Int64.ofInt scale.toInt)
              rw [Int64.ofInt_toInt]
            · rw [dif_neg range, if_neg range]
              rfl
          · rintro ⟨-, _, _, other, -, tooLong⟩
            have same := other.splitPoint.symm.trans parts.splitPoint
            cases same
            omega
    · have unmatched : ¬ decimalRe raw.toList = true := fun matched =>
        canonical (matchesUnsigned_iff.mp matched)
      obtain ⟨text, refused⟩ := @ksDecimalParse_refused raw scale canonical
      rw [if_neg unmatched, refused]
      refine iff_of_true rfl ?_
      rintro ⟨-, whole, fraction, parts, -⟩
      exact canonical ⟨whole, fraction, parts⟩
  · rw [dif_neg scaled]
    unfold ksDecimalParse
    dsimp only
    rw [bind_raiseIf_of (not_not.mp (scaled_iff.not.mpr scaled))]
    exact iff_of_true rfl fun ⟨isScaled, _⟩ => scaled isScaled

end Reading

/-! ## Computing -/

section Computing

variable (left right : DecimalValue)

theorem toInt_atoms (value : DecimalValue) : value.represent.atoms.toInt = value.atoms :=
  bmod_of_inRange value.inRange

theorem toInt_scale (value : DecimalValue) : value.represent.scale.toInt = value.scale := by
  refine bmod_of_inRange ?_
  have scaled := value.scaled
  unfold maxScale at scaled
  unfold InRange intMin intMax
  omega

theorem scale_eq_iff : left.represent.scale = right.represent.scale ↔ left.scale = right.scale := by
  rw [← Int64.toInt_inj, toInt_scale, toInt_scale]

/-- The differences and sums in the tests for overflow do not overflow themselves. -/
structure TestsExact (atoms : Int64) : Prop where
  positive : 0 < atoms → (ksIntMax - atoms).toInt = intMax - atoms.toInt ∧
    (ksIntMin + atoms).toInt = intMin + atoms.toInt
  negative : atoms < 0 → (ksIntMin - atoms).toInt = intMin - atoms.toInt ∧
    (ksIntMax + atoms).toInt = intMax + atoms.toInt

theorem bmod_of_fits {i : Int} (range : InRange i) : i.bmod (2 ^ 64) = i := by
  unfold InRange intMin intMax at range
  apply Int.bmod_eq_of_le <;> omega

theorem toInt_ksIntMax : ksIntMax.toInt = intMax := by decide

theorem toInt_ksIntMin : ksIntMin.toInt = intMin := by decide

theorem toInt_inRange (atoms : Int64) : InRange atoms.toInt := by
  have low := atoms.le_toInt
  have high := atoms.toInt_lt
  unfold InRange intMin intMax
  omega

theorem sign_iff (atoms : Int64) :
    (0 < atoms ↔ 0 < atoms.toInt) ∧ (atoms < 0 ↔ atoms.toInt < 0) := by
  have zero : (0 : Int64).toInt = 0 := by decide
  rw [Int64.lt_iff_toInt_lt, Int64.lt_iff_toInt_lt, zero]
  exact ⟨Iff.rfl, Iff.rfl⟩

theorem testsExact (atoms : Int64) : TestsExact atoms := by
  have range := toInt_inRange atoms
  unfold InRange intMin intMax at range
  constructor <;> intro sign <;> simp only [sign_iff] at sign <;>
    rw [Int64.toInt_sub, Int64.toInt_add, toInt_ksIntMax, toInt_ksIntMin] <;>
    constructor <;> refine bmod_of_fits ?_ <;> unfold InRange intMin intMax <;> omega

/-- The test for overflow of an addition. -/
theorem add_test_iff (first second : Int64) :
    (second > 0 ∧ first > ksIntMax - second ∨ second < 0 ∧ first < ksIntMin - second) ↔
      ¬ InRange (first.toInt + second.toInt) := by
  have isFirst := toInt_inRange first
  have positive (positive : second > 0) :
      first > ksIntMax - second ↔ intMax - second.toInt < first.toInt := by
    rw [gt_iff_lt, Int64.lt_iff_toInt_lt, ((testsExact second).positive positive).1]
  have negative (negative : second < 0) :
      first < ksIntMin - second ↔ first.toInt < intMin - second.toInt := by
    rw [Int64.lt_iff_toInt_lt, ((testsExact second).negative negative).1]
  rw [and_congr_right positive, and_congr_right negative, gt_iff_lt, (sign_iff second).1,
    (sign_iff second).2]
  unfold InRange intMin intMax at *
  omega

/-- The test for overflow of a subtraction. -/
theorem sub_test_iff (first second : Int64) :
    (second > 0 ∧ first < ksIntMin + second ∨ second < 0 ∧ first > ksIntMax + second) ↔
      ¬ InRange (first.toInt - second.toInt) := by
  have isFirst := toInt_inRange first
  have positive (positive : second > 0) :
      first < ksIntMin + second ↔ first.toInt < intMin + second.toInt := by
    rw [Int64.lt_iff_toInt_lt, ((testsExact second).positive positive).2]
  have negative (negative : second < 0) :
      first > ksIntMax + second ↔ intMax + second.toInt < first.toInt := by
    rw [gt_iff_lt, Int64.lt_iff_toInt_lt, ((testsExact second).negative negative).2]
  rw [and_congr_right positive, and_congr_right negative, gt_iff_lt, (sign_iff second).1,
    (sign_iff second).2]
  unfold InRange intMin intMax at *
  omega

theorem pair_agrees {atoms : Int} {result : Int64} {test : Prop} [Decidable test] {overflow text : String}
    (tested : test ↔ ¬ InRange atoms) (same : result = Int64.ofInt atoms) :
    Agrees DecimalValue.represent (do
        sameScale left right
        bounded atoms left overflow)
      (do
        ksDecimalPair left.represent right.represent
        raiseIf test ⟨"KS3803", text⟩
        .ok ⟨result, left.represent.scale⟩) := by
  unfold sameScale ksDecimalPair
  by_cases scales : left.scale ≠ right.scale
  · rw [bind_raiseIf_of scales, bind_raiseIf_of ((scale_eq_iff left right).not.mpr scales)]
    exact rfl
  · rw [bind_raiseIf scales, bind_raiseIf (not_not.mpr ((scale_eq_iff left right).mpr (not_not.mp scales)))]
    unfold bounded
    by_cases range : InRange atoms
    · rw [dif_pos range, bind_raiseIf fun fails => tested.mp fails range, same]
      exact rfl
    · rw [dif_neg range, bind_raiseIf_of (tested.mpr range)]
      exact rfl

theorem add_agrees : Agrees DecimalValue.represent (addDecimal left right)
    (ksDecimalAdd left.represent right.represent) := by
  have tested := add_test_iff left.represent.atoms right.represent.atoms
  rw [toInt_atoms, toInt_atoms] at tested
  exact pair_agrees left right tested (Int64.ofInt_add _ _).symm

theorem sub_agrees : Agrees DecimalValue.represent (subDecimal left right)
    (ksDecimalSub left.represent right.represent) := by
  have tested := sub_test_iff left.represent.atoms right.represent.atoms
  rw [toInt_atoms, toInt_atoms] at tested
  exact pair_agrees left right tested (Int64.ofInt_sub _ _).symm

theorem cmp_agrees : Agrees Int64.ofInt (compareDecimal left right)
    (ksDecimalCmp left.represent right.represent) := by
  unfold compareDecimal ksDecimalCmp sameScale ksDecimalPair
  by_cases scales : left.scale ≠ right.scale
  · rw [bind_raiseIf_of scales, bind_raiseIf_of ((scale_eq_iff left right).not.mpr scales)]
    exact rfl
  · rw [bind_raiseIf scales, bind_raiseIf (not_not.mpr ((scale_eq_iff left right).mpr (not_not.mp scales)))]
    have order : ∀ first second : DecimalValue,
        first.represent.atoms < second.represent.atoms ↔ first.atoms < second.atoms := by
      intro first second
      rw [Int64.lt_iff_toInt_lt, toInt_atoms, toInt_atoms]
    have below := order left right
    have above := order right left
    rcases lt_trichotomy left.atoms right.atoms with less | same | more
    · rw [if_neg (lt_asymm less), if_pos less, if_pos (below.mpr less)]
      exact rfl
    · rw [if_neg (show ¬ left.atoms > right.atoms by omega), if_neg (show ¬ left.atoms < right.atoms by omega),
        if_neg (below.not.mpr (by omega)), if_neg (above.not.mpr (by omega))]
      exact rfl
    · rw [if_pos more, if_neg (lt_asymm more), if_neg (below.not.mpr (lt_asymm more)),
        if_pos (above.mpr more)]
      exact rfl

end Computing

/-! ## Writing -/

theorem digitsOfInt_ofNat (n : Nat) : digitsOfInt n = Nat.toDigits 10 n := Nat.toList_repr

theorem digitsOfInt_neg (n : Nat) : digitsOfInt (Int.negSucc n) = '-' :: Nat.toDigits 10 (n + 1) := by
  show ("-" ++ Nat.repr (n + 1)).toList = _
  rw [toList_append, Nat.toList_repr]
  rfl

/-- A number is written with a sign exactly when it is negative. -/
theorem head?_digitsOfInt (value : Int) :
    decide ((digitsOfInt value).head? = some '-') = decide (value < 0) := by
  cases value with
  | ofNat n =>
    rw [decide_eq_false (show ¬ Int.ofNat n < 0 by simp), decide_eq_false_iff_not]
    intro sign
    rw [show digitsOfInt (Int.ofNat n) = Nat.toDigits 10 n from digitsOfInt_ofNat n] at sign
    have digit := Nat.isDigit_of_mem_toDigits (by decide) (by decide) (List.mem_of_mem_head? sign)
    exact absurd digit (by decide)
  | negSucc n =>
    rw [digitsOfInt_neg, decide_eq_true (Int.negSucc_lt_zero n)]
    rfl

/-- Both lanes write every decimal alike. -/
theorem ksDecimalFormat_represent (value : DecimalValue) :
    ksDecimalFormat value.represent = decimalText value := by
  have zero : (0 : Int64).toInt = 0 := by decide
  have atoms : value.represent.atoms ≠ 0 ↔ value.atoms ≠ 0 := by
    rw [Ne, ← Int64.toInt_inj, toInt_atoms, zero]
  have scale : value.represent.scale > 0 ↔ ¬ value.scale = 0 := by
    rw [gt_iff_lt, Int64.lt_iff_toInt_lt, toInt_scale, zero]
    have scaled := value.scaled
    omega
  have padded : ∀ (digits : List Char) (width : Nat),
      (if digits.length < width then replicate (width - digits.length) '0' ++ digits
        else digits) = digits.leftpad width '0' := by
    intro digits width
    unfold leftpad
    split
    · rfl
    · rw [Nat.sub_eq_zero_of_le (by omega)]
      rfl
  unfold ksDecimalFormat decimalText
  simp only [toInt_atoms, toInt_scale, head?_digitsOfInt, atoms, scale, padded, ite_not]

/-! ## Both lanes -/

/-- **Both lanes have the same decimals**, but for the texts with too many digits: a text at a scale
is read alike exactly when it is not one of these. Sums, differences and comparisons agree, their tests
for overflow are exact, and every decimal is written alike. -/
theorem decimal_lanes_agree_iff (raw : String) (scale : Int64) (left right : DecimalValue) :
    (ParseAgrees raw scale ∧ Agrees DecimalValue.represent (addDecimal left right)
        (ksDecimalAdd left.represent right.represent) ∧
      Agrees DecimalValue.represent (subDecimal left right)
        (ksDecimalSub left.represent right.represent) ∧
      Agrees Int64.ofInt (compareDecimal left right)
        (ksDecimalCmp left.represent right.represent) ∧
      TestsExact right.represent.atoms ∧
      ksDecimalFormat left.represent = decimalText left) ↔ ¬ Overlong raw scale := by
  rw [parseAgrees_iff]
  exact ⟨And.left, fun short => ⟨short, add_agrees left right, sub_agrees left right,
    cmp_agrees left right, testsExact _, ksDecimalFormat_represent left⟩⟩

/-- A one and 4300 zeros. -/
def overlongText : String := ofList ('1' :: replicate 4300 '0')

/-- The interpreter raises a `ValueError` for a text of 4301 digits. -/
theorem parse_disagrees : ¬ ParseAgrees overlongText 0 := by
  rw [parseAgrees_iff, not_not]
  refine ⟨by decide, '1' :: replicate 4300 '0', [], ?_, by decide, ?_⟩
  · refine ⟨?_, cons_ne_nil _ _, ?_, fun zero => (by cases zero), forall_mem_nil _⟩
    · unfold overlongText
      rw [toList_ofList, if_pos rfl, append_nil]
      rfl
    · intro c inside
      rcases mem_cons.mp inside with rfl | inside
      · decide
      · rw [(List.mem_replicate.mp inside).2]
        decide
  · rw [length_cons, length_replicate]
    decide

end Koschei.Financial
