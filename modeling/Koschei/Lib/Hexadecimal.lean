import Koschei.Lib.Names

/-!
# Hexadecimal numbers

A number is written with its lower case hexadecimal digits, with zeros in front up to a width, and
is read back from them.
-/

namespace Koschei.Lib

/-- The number in hexadecimal digits, with zeros in front up to a width. -/
def hexadecimal (width n : Nat) : List Char := leftpad width '0' (Nat.toDigits 16 n)

def hexDigit (char : Char) : Nat := if char.toNat < 97 then char.toNat - 48 else char.toNat - 87

def readHexadecimal (digits : List Char) : Nat :=
  digits.foldl (fun n digit => n * 16 + hexDigit digit) 0

theorem hexDigit_digitChar {digit : Nat} (small : digit < 16) : hexDigit digit.digitChar = digit := by
  have all : ∀ digit < 16, hexDigit digit.digitChar = digit := by decide
  exact all digit small

theorem readHexadecimal_toDigits (n : Nat) : readHexadecimal (Nat.toDigits 16 n) = n := by
  induction n using Nat.strongRecOn with
  | ind n ih =>
    by_cases small : n < 16
    · rw [Nat.toDigits_of_lt_base small]
      exact (Nat.zero_add _).trans (hexDigit_digitChar small)
    · rw [Nat.toDigits_of_base_le (by decide) (Nat.le_of_not_lt small)]
      unfold readHexadecimal at ih ⊢
      rw [foldl_append, ih (n / 16) (by omega), foldl_cons, List.foldl_nil,
        hexDigit_digitChar (Nat.mod_lt n (by decide))]
      omega

theorem readHexadecimal_zeros (zeros : Nat) (digits : List Char) :
    readHexadecimal (replicate zeros '0' ++ digits) = readHexadecimal digits := by
  induction zeros with
  | zero => rfl
  | succ zeros ih => exact ih

/-- A number is read back from its digits. -/
theorem readHexadecimal_hexadecimal (width n : Nat) : readHexadecimal (hexadecimal width n) = n := by
  unfold hexadecimal leftpad
  rw [readHexadecimal_zeros, readHexadecimal_toDigits]

theorem hexadecimal_inj {width first second : Nat}
    (same : hexadecimal width first = hexadecimal width second) : first = second := by
  rw [← readHexadecimal_hexadecimal width first, same, readHexadecimal_hexadecimal]

end Koschei.Lib
