import Koschei.Lib.Names

/-!
# Checks in sequence

A check hands on a value or stops with a message. A sequence of checks passes
when each of them does, one after the other. The simplest check stops when a
condition holds.
-/

namespace Koschei.Lib

variable {ε α β : Type}

variable {x : Except ε α} {f : α → Except ε β} {b : β}

/-- A sequence that passed: its first part passed, and then its rest. -/
theorem bind_eq_ok (run : x >>= f = .ok b) : ∃ a, x = .ok a ∧ f a = .ok b := by
  cases x with
  | error e => cases run
  | ok a => exact ⟨a, rfl, run⟩

/-- A changed value that was handed on is the value of the check, changed. -/
theorem map_eq_ok {f : α → β} (run : x.map f = .ok b) : ∃ a, x = .ok a ∧ f a = b := by
  cases x with
  | error e => cases run
  | ok a =>
    cases run
    exact ⟨a, rfl, rfl⟩

variable {e fault : ε}

/-- A sequence that stopped: in its first part, or in its rest. -/
theorem bind_eq_error (run : x >>= f = .error e) :
    x = .error e ∨ ∃ a, x = .ok a ∧ f a = .error e := by
  cases x with
  | error e =>
    cases run
    exact .inl rfl
  | ok a => exact .inr ⟨a, rfl, run⟩

/-- A sequence whose first part passed goes on with its rest. -/
theorem bind_of_ok {a : α} (run : x = .ok a) : x >>= f = f a := by
  rw [run]
  rfl

theorem bind_eq_ok_iff : x >>= f = .ok b ↔ ∃ a, x = .ok a ∧ f a = .ok b :=
  ⟨bind_eq_ok, fun ⟨_, first, rest⟩ => (bind_of_ok first).trans rest⟩

/-- A sequence behind a check passes when the check does and its rest does. -/
theorem bind_unit_iff {x : Except ε Unit} {f : Unit → Except ε β} :
    x >>= f = .ok b ↔ x = .ok () ∧ f () = .ok b := by
  constructor
  · intro run
    obtain ⟨_, first, rest⟩ := bind_eq_ok run
    exact ⟨first, rest⟩
  · rintro ⟨first, rest⟩
    exact (bind_of_ok first).trans rest

/-- A sequence behind a check that can hand on one value only. -/
theorem bind_iff {a : α} {P : Prop} (passes : P → x = .ok a) (sound : ∀ c, x = .ok c → c = a ∧ P) :
    x >>= f = .ok b ↔ P ∧ f a = .ok b := by
  constructor
  · intro run
    obtain ⟨c, first, rest⟩ := bind_eq_ok run
    obtain ⟨rfl, holds⟩ := sound c first
    exact ⟨holds, rest⟩
  · rintro ⟨holds, rest⟩
    exact (bind_of_ok (passes holds)).trans rest

/-- A check that stops when its condition holds. -/
def raiseIf (condition : Prop) [Decidable condition] (fault : ε) : Except ε Unit :=
  if condition then .error fault else .ok ()

variable {condition : Prop}

theorem raiseIf_eq_ok [Decidable condition] {u : Unit}
    (passed : raiseIf condition fault = .ok u) : ¬ condition := by
  unfold raiseIf at passed
  split at passed
  · cases passed
  · assumption

theorem raiseIf_iff [Decidable condition] {u : Unit} :
    raiseIf condition fault = .ok u ↔ ¬ condition :=
  ⟨raiseIf_eq_ok, fun fails => if_neg fails⟩

theorem raiseIf_eq_error [Decidable condition]
    (stopped : raiseIf condition fault = .error e) : condition ∧ fault = e := by
  unfold raiseIf at stopped
  split at stopped
  · cases stopped
    exact ⟨‹_›, rfl⟩
  · cases stopped

theorem raiseIf_of_not [Decidable condition]
    (fails : ¬ condition) : raiseIf condition fault = .ok () := if_neg fails

/-- A sequence behind a check whose condition fails is the rest of it. -/
theorem bind_raiseIf [Decidable condition] {f : Unit → Except ε β}
    (fails : ¬ condition) : (raiseIf condition fault >>= f) = f () := by
  rw [raiseIf_of_not fails]
  rfl

/-- A sequence behind a check whose condition holds stops. -/
theorem bind_raiseIf_of [Decidable condition] {f : Unit → Except ε β}
    (holds : condition) : (raiseIf condition fault >>= f) = .error fault := by
  unfold raiseIf
  rw [if_pos holds]
  rfl

end Koschei.Lib
