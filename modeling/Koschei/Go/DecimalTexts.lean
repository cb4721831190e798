import Koschei.Go.Financial
import Mathlib.Tactic.Positivity
import Mathlib.Tactic.FieldSimp

/-!
# The texts of financial decimals

A text of a decimal denotes a rational number. `parse_decimal` reads that number without
rounding, `decimal_text` writes a text that is read back, and `compare_decimal` orders the
numbers.
-/

namespace Koschei.Financial

open Lib
open Nat (ofDigitChars)

/-- The number that a decimal text denotes. -/
def textValue (text : List Char) : ℚ :=
  let (whole, fraction) := splitPoint (unsignedPart text)
  let magnitude : ℚ := ofDigitChars 10 whole 0 + ofDigitChars 10 fraction 0 / 10 ^ fraction.length
  if text.head? = some '-' then -magnitude else magnitude

/-- The number that a decimal denotes. -/
def DecimalValue.denotes (value : DecimalValue) : ℚ := value.atoms / 10 ^ value.scale.toNat

theorem numberOf_digits (digits : List Char) :
    numberOf (digits.map (·.toNat - 48)) = ofDigitChars 10 digits 0 :=
  List.foldl_map

/-! ## Reading -/

theorem numberOf_atomDigits (whole fraction : List Char) (scale : Int) :
    numberOf ((atomDigits whole fraction scale).map (·.toNat - 48)) =
      10 ^ (scale.toNat - fraction.length) *
        (10 ^ fraction.length * ofDigitChars 10 whole 0 + ofDigitChars 10 fraction 0) := by
  rw [numberOf_digits, atomDigits, Nat.ofDigitChars_append, Nat.ofDigitChars_replicate_zero,
    Nat.ofDigitChars_append, Nat.ofDigitChars_eq_ofDigitChars_zero]

/-- The digits of the atoms write the number of the text, as many times as the scale says. -/
theorem atomDigits_exact (whole : List Char) {fraction : List Char} {scale : Int}
    (fits : ¬ (fraction.length : Int) > scale) :
    (numberOf ((atomDigits whole fraction scale).map (·.toNat - 48)) : ℚ) =
      (ofDigitChars 10 whole 0 + ofDigitChars 10 fraction 0 / 10 ^ fraction.length) *
        10 ^ scale.toNat := by
  have power : (10 : ℚ) ^ scale.toNat =
      10 ^ (scale.toNat - fraction.length) * 10 ^ fraction.length := by
    rw [← pow_add, Nat.sub_add_cancel (by omega)]
  rw [numberOf_atomDigits, power]
  push_cast
  field_simp

/-- What is read is exactly what the text denotes. -/
theorem parseDecimal_exact {raw : String} {scale : Int} {value : DecimalValue}
    (read : parseDecimal raw scale = .ok value) :
    value.scale = scale ∧ (value.atoms : ℚ) = textValue raw.toList * 10 ^ scale.toNat := by
  unfold parseDecimal at read
  dsimp only at read
  split at read <;> [skip; cases read]
  split at read <;> [skip; cases read]
  split at read <;> [cases read; skip]
  rename_i fits
  split at read <;> [cases read; skip]
  rename_i magnitude digits
  split at read <;> [skip; cases read]
  cases read
  refine ⟨rfl, ?_⟩
  unfold intOfDigits at digits
  split at digits <;> [cases digits; skip]
  have exact := atomDigits_exact (splitPoint (unsignedPart raw.toList)).1 fits
  rw [some.inj digits] at exact
  unfold withSign textValue
  dsimp only
  by_cases minus : raw.toList.head? = some '-'
  · rw [decide_eq_true minus, if_pos rfl, if_pos minus, neg_mul, ← exact]
    push_cast
    rfl
  · rw [decide_eq_false minus, if_neg false_ne_true, if_neg minus, ← exact]
    rfl

/-! ## Writing -/

/-- Only zero is written with a leading zero. -/
theorem toDigits_leading {n : Nat} (zero : (Nat.toDigits 10 n).head? = some '0') : n = 0 := by
  induction n using Nat.strongRecOn with
  | ind n ih =>
    by_cases small : n < 10
    · rw [Nat.toDigits_of_lt_base small] at zero
      have digits : ∀ n < 10, [n.digitChar].head? = some '0' → n = 0 := by decide
      exact digits n small zero
    · rw [Nat.toDigits_of_base_le (by decide) (Nat.le_of_not_lt small),
        List.head?_append_of_ne_nil _ Nat.toDigits_ne_nil] at zero
      have none := ih (n / 10) (by omega) zero
      omega

/-- The digits of the atoms, filled up to one before the point. -/
def padded (value : DecimalValue) : List Char :=
  (Nat.toDigits 10 value.atoms.natAbs).leftpad (value.scale.toNat + 1) '0'

theorem digitsOfInt_unsigned (value : Int) :
    (if value < 0 then (digitsOfInt value).tail else digitsOfInt value) =
      Nat.toDigits 10 value.natAbs := by
  cases value with
  | ofNat n =>
    rw [if_neg (by simp)]
    exact digitsOfInt_ofNat n
  | negSucc n =>
    rw [if_pos (Int.negSucc_lt_zero n), digitsOfInt_neg]
    rfl

section Written

variable (value : DecimalValue)

theorem length_padded : value.scale.toNat + 1 ≤ (padded value).length := by
  unfold padded
  rw [List.length_leftpad]
  exact le_max_left _ _

theorem length_padded_le : (padded value).length ≤ maxStrDigits := by
  have range := value.inRange
  have scaled := value.scaled
  have digits : (Nat.toDigits 10 value.atoms.natAbs).length ≤ 19 := by
    rw [Nat.length_toDigits_le_iff (by decide) (by decide)]
    unfold InRange intMin intMax at range
    omega
  unfold padded maxStrDigits
  unfold maxScale at scaled
  rw [List.length_leftpad]
  omega

theorem digit_of_mem_padded : ∀ c ∈ padded value, c.isDigit = true := by
  intro c inside
  unfold padded leftpad at inside
  rcases mem_append.mp inside with zero | inside
  · rw [(List.mem_replicate.mp zero).2]
    decide
  · exact Nat.isDigit_of_mem_toDigits (by decide) (by decide) inside

theorem numberOf_padded : numberOf ((padded value).map (·.toNat - 48)) = value.atoms.natAbs := by
  rw [numberOf_digits]
  unfold padded leftpad
  rw [Nat.ofDigitChars_append, Nat.ofDigitChars_replicate_zero, Nat.mul_zero,
    Nat.ofDigitChars_ten_toDigits]

/-- The parts of the text of a decimal. -/
def writtenWhole : List Char := (padded value).take ((padded value).length - value.scale.toNat)

def writtenFraction : List Char := (padded value).drop ((padded value).length - value.scale.toNat)

theorem length_writtenFraction : (writtenFraction value).length = value.scale.toNat := by
  have long := length_padded value
  unfold writtenFraction
  rw [List.length_drop]
  omega

/-- The text is the sign and the two parts. -/
theorem decimalText_eq : decimalText value = (if value.atoms < 0 then ['-'] else []) ++
    (writtenWhole value ++ if writtenFraction value = [] then [] else '.' :: writtenFraction value) := by
  have empty : writtenFraction value = [] ↔ value.scale = 0 := by
    rw [← length_eq_zero_iff, length_writtenFraction]
    have scaled := value.scaled
    omega
  unfold decimalText
  simp only [decide_eq_true_eq, digitsOfInt_unsigned]
  have rendered : (if value.scale = 0 then Nat.toDigits 10 value.atoms.natAbs else
      writtenWhole value ++ '.' :: writtenFraction value) =
        writtenWhole value ++ if writtenFraction value = [] then [] else '.' :: writtenFraction value := by
    by_cases integral : value.scale = 0
    · have long : ¬ (Nat.toDigits 10 value.atoms.natAbs).length < 1 :=
        Nat.not_lt.mpr Nat.length_toDigits_pos
      rw [if_pos integral, if_pos (empty.mpr integral), writtenWhole, padded, integral, append_nil]
      simp [leftpad, Nat.sub_eq_zero_of_le (Nat.not_lt.mp long)]
    · rw [if_neg integral, if_neg (empty.not.mpr integral)]
  have sign : (decide (value.atoms < 0) && decide (value.atoms ≠ 0)) = decide (value.atoms < 0) := by
    rw [Bool.and_eq_left_iff_imp, decide_eq_true_eq, decide_eq_true_eq]
    exact ne_of_lt
  rw [sign, ← rendered]
  by_cases negative : value.atoms < 0
  · rw [decide_eq_true negative, if_pos negative]
    rfl
  · rw [decide_eq_false negative, if_neg negative]
    rfl

theorem written_parts : Parts
    (writtenWhole value ++ if writtenFraction value = [] then [] else '.' :: writtenFraction value)
    (writtenWhole value) (writtenFraction value) where
  written := rfl
  nonempty := by
    have long := length_padded value
    unfold writtenWhole
    rw [Ne, List.take_eq_nil_iff, not_or]
    refine ⟨by omega, List.ne_nil_of_length_pos (by omega)⟩
  wholeDigits c inside := digit_of_mem_padded value c (List.mem_of_mem_take inside)
  fractionDigits c inside := digit_of_mem_padded value c (List.mem_of_mem_drop inside)
  leading := by
    intro zero
    have long := length_padded value
    have first : (padded value).head? = some '0' := by
      rwa [writtenWhole, List.head?_take, if_neg (by omega)] at zero
    have alone : (padded value).length = value.scale.toNat + 1 := by
      by_cases filled : (Nat.toDigits 10 value.atoms.natAbs).length ≤ value.scale.toNat + 1
      · unfold padded
        rw [List.length_leftpad]
        exact max_eq_left filled
      · unfold padded leftpad at first
        rw [Nat.sub_eq_zero_of_le (by omega)] at first
        rw [toDigits_leading first] at filled
        exact absurd (Nat.le_add_left 1 _) filled
    have one : (writtenWhole value).length = 1 := by
      rw [writtenWhole, List.length_take]
      omega
    obtain ⟨digit, isDigit⟩ := length_eq_one_iff.mp one
    rw [isDigit] at zero ⊢
    exact congrArg (fun c => [c]) (some.inj zero)

/-- What is written is read back. -/
theorem parseDecimal_decimalText :
    parseDecimal (ofList (decimalText value)) value.scale = .ok value := by
  have parts := written_parts value
  have minus : (decimalText value).head? = some '-' ↔ value.atoms < 0 := by
    rw [decimalText_eq]
    by_cases negative : value.atoms < 0
    · rw [if_pos negative]
      exact iff_of_true rfl negative
    · rw [if_neg negative, nil_append, List.head?_append_of_ne_nil _ parts.nonempty]
      refine iff_of_false (fun sign => ?_) negative
      exact absurd (parts.wholeDigits _ (List.mem_of_mem_head? sign)) (by decide)
  have unsigned : unsignedPart (decimalText value) = writtenWhole value ++
      if writtenFraction value = [] then [] else '.' :: writtenFraction value := by
    unfold unsignedPart
    by_cases negative : value.atoms < 0
    · rw [if_pos (minus.mpr negative), decimalText_eq, if_pos negative]
      rfl
    · rw [if_neg (minus.not.mpr negative), decimalText_eq, if_neg negative]
      rfl
  have digits : atomDigits (writtenWhole value) (writtenFraction value) value.scale = padded value := by
    rw [atomDigits, length_writtenFraction, Nat.sub_self, writtenWhole, writtenFraction,
      take_append_drop]
    exact append_nil _
  have magnitude : intOfDigits (padded value) = some value.atoms.natAbs := by
    rw [intOfDigits, if_neg (Nat.not_lt.mpr (length_padded_le value)), numberOf_padded]
  have atoms : withSign (decide ((decimalText value).head? = some '-')) value.atoms.natAbs =
      value.atoms := by
    unfold withSign
    simp only [minus, decide_eq_true_eq]
    split <;> omega
  have kept : ∀ atoms, atoms = value.atoms →
      (if inRange : InRange atoms then .ok ⟨atoms, value.scale, inRange, value.scaled⟩
        else .error (.decimal ⟨"KS3803", "decimal atoms overflow signed int64"⟩) :
          Except Failure DecimalValue) = .ok value := by
    rintro _ rfl
    exact dif_pos value.inRange
  have fits : ¬ ((writtenFraction value).length : Int) > value.scale := by
    rw [length_writtenFraction]
    have scaled := value.scaled
    omega
  unfold parseDecimal
  rw [toList_ofList, dif_pos value.scaled,
    if_pos (show decimalRe _ = true from matchesUnsigned_iff.mpr ⟨_, _, unsigned ▸ parts⟩), unsigned, parts.splitPoint]
  dsimp only
  rw [if_neg fits, digits, magnitude]
  exact kept _ atoms

end Written

/-! ## Ordering -/

/-- Decimals of one scale are ordered as the numbers they denote. -/
theorem denotes_lt_iff {left right : DecimalValue} (same : left.scale = right.scale) :
    left.denotes < right.denotes ↔ left.atoms < right.atoms := by
  unfold DecimalValue.denotes
  rw [same, div_lt_div_iff_of_pos_right (by positivity), Int.cast_lt]

/-- **The texts of decimals are exact**: what is read is what the text denotes, what is written
is read back, and at one scale no two decimals have one text and decimals are ordered as numbers. -/
theorem decimal_texts_exact (raw : String) (scale : Int) (value left right : DecimalValue) :
    (∀ parsed, parseDecimal raw scale = .ok parsed →
      parsed.scale = scale ∧ (parsed.atoms : ℚ) = textValue raw.toList * 10 ^ scale.toNat) ∧
    parseDecimal (ofList (decimalText value)) value.scale = .ok value ∧
    textValue (decimalText value) = value.denotes ∧
    (left.scale = right.scale → (decimalText left = decimalText right → left = right) ∧
      compareDecimal left right = .ok (if left.denotes > right.denotes then 1
        else if left.denotes < right.denotes then -1 else 0)) := by
  refine ⟨fun parsed read => parseDecimal_exact read, parseDecimal_decimalText value, ?_, ?_⟩
  · have exact := (parseDecimal_exact (parseDecimal_decimalText value)).2
    rw [toList_ofList] at exact
    exact (eq_div_of_mul_eq (by positivity) exact.symm)
  · intro same
    refine ⟨fun text => ?_, ?_⟩
    · have read := parseDecimal_decimalText left
      rw [text, same, parseDecimal_decimalText right] at read
      exact (Except.ok.inj read).symm
    · unfold compareDecimal sameScale
      rw [bind_raiseIf (not_not.mpr same)]
      simp only [gt_iff_lt, denotes_lt_iff same, denotes_lt_iff same.symm]
      refine congrArg Except.ok ?_
      split <;> split <;> omega

/-- The text of 99 hundredths below zero, and its order with one hundredth. -/
theorem decimal_texts_exact_hundredths :
    ((-99 : Int) : ℚ) = textValue "-0.99".toList * 10 ^ (2 : Int).toNat ∧
      compareDecimal ⟨-99, 2, by decide, by decide⟩ ⟨1, 2, by decide, by decide⟩ = .ok (-1) := by
  obtain ⟨reads, -, -, ordered⟩ := decimal_texts_exact "-0.99" 2
    ⟨-99, 2, by decide, by decide⟩ ⟨-99, 2, by decide, by decide⟩ ⟨1, 2, by decide, by decide⟩
  refine ⟨(reads ⟨-99, 2, by decide, by decide⟩ rfl).2, ?_⟩
  rw [(ordered rfl).2]
  simp only [gt_iff_lt, denotes_lt_iff]
  rfl

end Koschei.Financial
