import Koschei.Types.Text
import Koschei.Lib.Checks
import Mathlib.Data.List.Infix

/-!
# Clauses of witness graphs

The sources of the native frontends are lines of tokens, one space between them. A
token is a word of the grammar, a witness identity or a decimal number. What the
three frontends share about their texts is here: `native_kernel_v1.py` admits ASCII
only, `native_value_domains_v1.py` and `native_decision_realities_v1.py` every text
that is Unicode NFC.
-/

namespace Koschei.Kernel

open Lib

/-- What the host language does with texts: `repr` and `unicodedata.normalize("NFC", ...)`. -/
structure Host where
  repr : String → String
  normalize : String → String

/-- The fields of a `NativeKernelError` or a `NativeValueDomainError`. -/
structure Report where
  code : String
  message : String
  line : Nat
  column : Nat
  deriving DecidableEq

/-- What can be raised: the error of a frontend, of an IR executor or of a materialisation, or the
one of a dict or a tuple. -/
inductive Fault where
  | kernel (report : Report)
  | value (report : Report)
  | decision (report : Report)
  | cell (message : String)
  | ir (message : String)
  | relationship (message : String)
  | mixedReuse (cause : String ⊕ Fault)
  | semantic (code message : String)
  | key
  | index
  | fuel

abbrev Checked (α : Type) : Type := Except Fault α

/-! ## Texts -/

/-- `text.split(separator)`. -/
def split (separator : Char) (text : String) : List String :=
  (text.toList.splitOn separator).map ofList

/-- `separator.join(texts)`. -/
def join (separator : Char) (texts : List String) : String :=
  ofList ([separator].intercalate (texts.map toList))

/-- `part in text`. -/
def Inside (part text : String) : Prop := part.toList <:+: text.toList

instance (part text : String) : Decidable (Inside part text) :=
  inferInstanceAs (Decidable (part.toList <:+: text.toList))

/-- `text.strip()`. -/
def stripped (text : String) : String := ofList (strip text.toList)

/-- `text.isascii()`. -/
def isAscii (text : String) : Bool := text.toList.all fun c => c.toNat < 128

/-- `text.isascii() and text.isdigit()`. -/
def isNumber (text : String) : Bool := text.toList != [] && text.toList.all isDigit

/-- `int(text)`. -/
def decimal (text : String) : Nat :=
  text.toList.foldl (fun number c => 10 * number + (c.toNat - '0'.toNat)) 0

/-- The bytes of `text.encode("utf-8")`. -/
def byteLength (text : String) : Nat := text.utf8ByteSize

/-- `re.compile(r"^[a-z][a-z0-9]{0,63}$").fullmatch(text)`. -/
def isName (text : String) : Bool := match text.toList with
  | [] => false
  | first :: others =>
    ('a' ≤ first && first ≤ 'z') &&
      others.all (fun c => ('a' ≤ c && c ≤ 'z') || c.isDigit) && others.length ≤ 63

theorem not_mem_of_splitOn {α : Type} [DecidableEq α] (separator : α) (text : List α) :
    ∀ part ∈ text.splitOn separator, separator ∉ part := by
  induction text with
  | nil => simp
  | cons a text ih =>
    rw [List.splitOn_cons_eq_if_modifyHead]
    split
    · intro part inside
      rcases mem_cons.mp inside with rfl | inside
      · exact not_mem_nil
      · exact ih part inside
    · rename_i differs
      cases parts : text.splitOn separator with
      | nil => exact absurd parts (List.splitOn_ne_nil separator text)
      | cons first others =>
        rw [parts] at ih
        intro part inside
        rw [List.modifyHead_cons] at inside
        rcases mem_cons.mp inside with rfl | inside
        · intro among
          rcases mem_cons.mp among with rfl | among
          · exact differs (beq_self_eq_true _)
          · exact ih first mem_cons_self among
        · exact ih part (mem_cons_of_mem _ inside)

theorem not_mem_of_split {separator : Char} {text part : String} (inside : part ∈ split separator text) :
    separator ∉ part.toList := by
  obtain ⟨chars, isPart, rfl⟩ := mem_map.mp inside
  rw [toList_ofList]
  exact not_mem_of_splitOn separator text.toList chars isPart

/-- Texts without the separator are found again when they are joined with it. -/
theorem split_join {separator : Char} {texts : List String} (some : texts ≠ [])
    (free : ∀ text ∈ texts, separator ∉ text.toList) : split separator (join separator texts) = texts := by
  unfold split join
  rw [toList_ofList, List.splitOn_intercalate]
  · rw [map_map]
    exact (map_congr_left fun text _ => ofList_toList).trans (map_id texts)
  · intro chars inside
    obtain ⟨text, isText, rfl⟩ := mem_map.mp inside
    exact free text isText
  · simpa using some

theorem split_ne_nil (separator : Char) (text : String) : split separator text ≠ [] := by
  simp [split]

/-! ### Numbers -/

/-- The digits of a number, after the digits that stand for another number. -/
def readDigits (number : Nat) (digits : List Char) : Nat :=
  digits.foldl (fun number c => 10 * number + (c.toNat - '0'.toNat)) number

theorem digit_le {c : Char} (digit : c.isDigit = true) : c.toNat - '0'.toNat ≤ 9 := by
  simp only [isDigit, and_eq_true, decide_eq_true_eq, UInt32.le_iff_toNat_le] at digit
  have upper : c.toNat ≤ 57 := digit.2
  show c.toNat - 48 ≤ 9
  omega

theorem readDigits_lt_pow {number : Nat} {digits : List Char} (all : ∀ c ∈ digits, c.isDigit = true) :
    readDigits number digits < (number + 1) * 10 ^ digits.length := by
  induction digits generalizing number with
  | nil => simp [readDigits]
  | cons c digits ih =>
    have here := digit_le (all c mem_cons_self)
    have rest := @ih (10 * number + (c.toNat - '0'.toNat)) (forall_mem_cons.mp all).2
    rw [length_cons, Nat.pow_succ']
    calc readDigits number (c :: digits)
        = readDigits (10 * number + (c.toNat - '0'.toNat)) digits := rfl
      _ < (10 * number + (c.toNat - '0'.toNat) + 1) * 10 ^ digits.length := rest
      _ ≤ ((number + 1) * 10) * 10 ^ digits.length := Nat.mul_le_mul_right _ (by omega)
      _ = (number + 1) * (10 * 10 ^ digits.length) := Nat.mul_assoc _ _ _

theorem readDigits_lt {first second : Nat} (below : first < second) {digits other : List Char}
    (lengths : digits.length = other.length) (all : ∀ c ∈ digits, c.isDigit = true) :
    readDigits first digits < readDigits second other := by
  induction digits generalizing first second other with
  | nil =>
    cases other with
    | nil => exact below
    | cons d other => cases lengths
  | cons c digits ih =>
    cases other with
    | nil => cases lengths
    | cons d other =>
      have here := digit_le (all c mem_cons_self)
      exact @ih (10 * first + (c.toNat - '0'.toNat)) (10 * second + (d.toNat - '0'.toNat))
        (by omega) other (Nat.succ.inj lengths) (forall_mem_cons.mp all).2

/-- Numbers with as many digits are in the order of their texts. -/
theorem readDigits_le {number : Nat} {digits other : List Char}
    (lengths : digits.length = other.length) (all : ∀ c ∈ digits, c.isDigit = true)
    (before : ¬ other < digits) : readDigits number digits ≤ readDigits number other := by
  induction digits generalizing number other with
  | nil =>
    cases other with
    | nil => exact Nat.le_refl _
    | cons d other => cases lengths
  | cons c digits ih =>
    cases other with
    | nil => cases lengths
    | cons d other =>
      have others : ∀ e ∈ digits, e.isDigit = true := (forall_mem_cons.mp all).2
      rw [List.cons_lt_cons_iff, not_or, not_and] at before
      by_cases same : d = c
      · subst same
        exact ih (Nat.succ.inj lengths) others (before.2 rfl)
      · have here := digit_le (all c mem_cons_self)
        have smaller : c.toNat < d.toNat := by
          rcases Nat.lt_trichotomy c.toNat d.toNat with less | equal | more
          · exact less
          · exact absurd (Char.toNat_inj.mp equal).symm same
          · exact absurd more before.1
        have zero : '0'.toNat ≤ c.toNat := by
          have digit := all c mem_cons_self
          simp only [isDigit, and_eq_true, decide_eq_true_eq, UInt32.le_iff_toNat_le] at digit
          exact digit.1
        exact (@readDigits_lt (10 * number + (c.toNat - '0'.toNat))
          (10 * number + (d.toNat - '0'.toNat)) (by omega) digits other
          (Nat.succ.inj lengths) others).le

end Koschei.Kernel
