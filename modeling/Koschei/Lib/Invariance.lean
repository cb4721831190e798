import Koschei.Lib.Computation

/-!
# Invariants of computations

A computation keeps an invariant of the state when every way it ends, started in
a state with the invariant, is a state with the invariant; its results and its
interrupts have properties of their own. The rules follow the ways computations
are put together.

Often the computation at hand is a guarded form of another: it stops with an
interrupt of its own where some condition fails, and otherwise does what the other
one does. `Keeps` is about both at once, so that one induction over an evaluator
gives the invariant for its guarded form and the agreement of the two, also where
they do not end.
-/

namespace Koschei.Lib

variable {ε σ α β : Type}

/-- The way a computation ends: the state has the invariant, and a result or an interrupt has
its property. -/
def Outcome.Satisfies (I : σ → Prop) (E : ε → Prop) (Q : α → Prop) : Outcome ε σ α → Prop
  | .ok a s => Q a ∧ I s
  | .raise e s => E e ∧ I s
  | .timeout => True

namespace Comp

variable {stop : ε} {I : σ → Prop} {E : ε → Prop} {P Q : α → Prop} {R : β → Prop}
  {x y : Comp ε σ α} {f g : α → Comp ε σ β} {s : σ}

/-- From a state, `x` stops, or does what `y` does, and then keeps the invariant. -/
def KeepsAt (stop : ε) (I : σ → Prop) (E : ε → Prop) (Q : α → Prop) (x y : Comp ε σ α) (s : σ) :
    Prop :=
  (∃ t, x s = .raise stop t) ∨ x s = y s ∧ (x s).Satisfies I E Q

/-- `KeepsAt` from every state with the invariant. -/
def Keeps (stop : ε) (I : σ → Prop) (E : ε → Prop) (Q : α → Prop) (x y : Comp ε σ α) : Prop :=
  ∀ s, I s → KeepsAt stop I E Q x y s

theorem KeepsAt.stopped {t : σ} (ended : x s = .raise stop t) : KeepsAt stop I E Q x y s :=
  .inl ⟨t, ended⟩

/-- A computation that keeps the invariant is a part of itself. -/
theorem KeepsAt.of_satisfies (kept : (x s).Satisfies I E Q) : KeepsAt stop I E Q x x s :=
  .inr ⟨rfl, kept⟩

theorem KeepsAt.pure {a : α} (holds : Q a) (start : I s) :
    KeepsAt stop I E Q (Pure.pure a) (Pure.pure a) s := .of_satisfies ⟨holds, start⟩

theorem KeepsAt.raise {e : ε} (holds : E e) (start : I s) :
    KeepsAt stop I E Q (raise e) (raise e) s := .of_satisfies ⟨holds, start⟩

/-- One computation after the other; the second knows how the first ended. -/
theorem KeepsAt.bind (first : KeepsAt stop I E P x y s)
    (rest : ∀ a t, x s = .ok a t → P a → I t → KeepsAt stop I E R (f a) (g a) t) :
    KeepsAt stop I E R (x >>= f) (y >>= g) s := by
  rcases first with ⟨t, stopped⟩ | ⟨same, satisfied⟩
  · exact .stopped (t := t) (by rw [bind_apply, stopped]; rfl)
  · simp only [KeepsAt, bind_apply, ← same]
    cases ended : x s with
    | timeout => exact .inr ⟨rfl, trivial⟩
    | raise e t =>
      rw [ended] at satisfied
      exact .inr ⟨rfl, satisfied⟩
    | ok a t =>
      rw [ended] at satisfied
      exact rest a t ended satisfied.1 satisfied.2

theorem Keeps.pure {a : α} (holds : Q a) : Keeps stop I E Q (Pure.pure a) (Pure.pure a) :=
  fun _ start => .pure holds start

theorem Keeps.raise {e : ε} (holds : E e) : Keeps stop I E Q (raise e) (raise e) :=
  fun _ start => .raise holds start

theorem Keeps.timeout : Keeps stop I E Q timeout timeout :=
  fun _ _ => .of_satisfies trivial

theorem Keeps.bind (first : Keeps stop I E P x y) (rest : ∀ a, P a → Keeps stop I E R (f a) (g a)) :
    Keeps stop I E R (x >>= f) (y >>= g) :=
  fun s start => (first s start).bind fun a t _ holds kept => rest a holds t kept

theorem Keeps.modify {change : σ → σ} (keeps : ∀ s, I s → I (change s)) :
    Keeps stop I E (fun _ => True) (Comp.modify change) (Comp.modify change) :=
  fun s start => .of_satisfies ⟨trivial, keeps s start⟩

theorem Keeps.withState {h k : σ → Comp ε σ α}
    (each : ∀ s, I s → KeepsAt stop I E Q (h s) (k s) s) :
    Keeps stop I E Q (withState h) (withState k) := fun s start => each s start

theorem Keeps.handle {handler other : ε → Comp ε σ α} (body : Keeps stop I E Q x y)
    (passed : handler stop = Comp.raise stop)
    (handlers : ∀ e, E e → Keeps stop I E Q (handler e) (other e)) :
    Keeps stop I E Q (x.handle handler) (y.handle other) := by
  intro s start
  rcases body s start with ⟨t, stopped⟩ | ⟨same, satisfied⟩
  · exact .stopped (t := t) (by simp only [Comp.handle, stopped, passed, raise_apply])
  · simp only [KeepsAt, Comp.handle, ← same]
    cases ended : x s with
    | timeout => exact .inr ⟨rfl, trivial⟩
    | ok a t =>
      rw [ended] at satisfied
      exact .inr ⟨rfl, satisfied⟩
    | raise e t =>
      rw [ended] at satisfied
      exact handlers e satisfied.1 t satisfied.2

/-- The state may be another one inside, as long as leaving it restores the invariant. -/
theorem KeepsAt.finallyDo {J : σ → Prop} {leave : σ → σ} (body : KeepsAt stop J E Q x y s)
    (restores : ∀ t, J t → I (leave t)) :
    KeepsAt stop I E Q (x.finallyDo leave) (y.finallyDo leave) s := by
  rcases body with ⟨t, stopped⟩ | ⟨same, satisfied⟩
  · exact .stopped (t := leave t) (by simp only [Comp.finallyDo, stopped])
  · simp only [KeepsAt, Comp.finallyDo, ← same]
    cases ended : x s with
    | timeout => exact .inr ⟨trivial, trivial⟩
    | ok a t =>
      rw [ended] at satisfied
      exact .inr ⟨trivial, satisfied.1, restores t satisfied.2⟩
    | raise e t =>
      rw [ended] at satisfied
      exact .inr ⟨trivial, satisfied.1, restores t satisfied.2⟩

end Comp

end Koschei.Lib
