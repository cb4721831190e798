import Koschei.Lib.Names
import Mathlib.Order.Defs.PartialOrder

/-!
# Computations with state, interrupts and a time limit

A computation reads a state and either finishes with a result, is interrupted,
or runs out of the fuel it was given. Interrupts keep the state they were
raised in, so the effects that happened before an interrupt stay visible; a
computation that ran out of fuel says nothing.

Outcomes are ordered by how much they say: running out of fuel is below every
outcome, and no other two outcomes are comparable. Giving an evaluator more
fuel moves its outcomes up in this order, and the sequencing operations are
monotone for it, which is what the fuel arguments of an evaluator rest on.
-/

namespace Koschei.Lib

/-- How a computation over a state ends. -/
inductive Outcome (ε σ α : Type) where
  | ok (result : α) (state : σ)
  | raise (interrupt : ε) (state : σ)
  | timeout
  deriving DecidableEq

/-- A computation that threads a state. -/
def Comp (ε σ α : Type) : Type := σ → Outcome ε σ α

variable {ε σ α β : Type}

namespace Outcome

/-- Continue after a result; interrupts and time-outs pass through. -/
def andThen (o : Outcome ε σ α) (next : α → σ → Outcome ε σ β) : Outcome ε σ β := match o with
  | .ok a s => next a s
  | .raise e s => .raise e s
  | .timeout => .timeout

/-- The result, or a default when there is none. -/
def resultD (o : Outcome ε σ α) (default : α) : α := match o with
  | .ok a _ => a
  | _ => default

/-- Whether there is a result. -/
def isOk : Outcome ε σ α → Bool
  | .ok _ _ => true
  | _ => false

/-- The result passes a test, if there is one. -/
def all (o : Outcome ε σ α) (test : α → σ → Bool) : Bool := match o with
  | .ok a s => test a s
  | .raise _ _ | .timeout => true

theorem all_true (o : Outcome ε σ α) : (o.all fun _ _ => true) = true := by
  cases o with
  | ok a s => rfl
  | raise e s => rfl
  | timeout => rfl

variable {o o' : Outcome ε σ α}

theorem isOk_iff : o.isOk = true ↔ ∃ a s, o = .ok a s := by
  cases o with
  | ok a s => exact ⟨fun _ => ⟨a, s, rfl⟩, fun _ => rfl⟩
  | raise e s => simp [isOk]
  | timeout => simp [isOk]

/-- The information order: a time-out says nothing. -/
def Below (o o' : Outcome ε σ α) : Prop := o = .timeout ∨ o = o'

theorem Below.refl (o : Outcome ε σ α) : Below o o := .inr rfl

theorem Below.timeout (o : Outcome ε σ α) : Below .timeout o := .inl rfl

theorem Below.eq_ok {a : α} {s : σ} (below : Below o o') (done : o = .ok a s) : o' = .ok a s := by
  rcases below with none | same
  · rw [none] at done
    cases done
  · rw [← same, done]

theorem Below.andThen {next next' : α → σ → Outcome ε σ β}
    (below : Below o o') (continues : ∀ a s, Below (next a s) (next' a s)) :
    Below (o.andThen next) (o'.andThen next') := by
  rcases below with rfl | rfl
  · exact .timeout _
  · cases o with
    | ok a s => exact continues a s
    | raise e s => exact .refl _
    | timeout => exact .refl _

theorem andThen_eq_ok {next : α → σ → Outcome ε σ β} {b : β} {s' : σ} :
    o.andThen next = .ok b s' ↔ ∃ a s, o = .ok a s ∧ next a s = .ok b s' := by
  cases o with
  | ok a s =>
    constructor
    · intro done
      exact ⟨a, s, rfl, done⟩
    · rintro ⟨_, _, same, done⟩
      cases same
      exact done
  | raise e s => simp [andThen]
  | timeout => simp [andThen]

end Outcome

namespace Comp

/-- Finish at once. -/
protected def pure (a : α) : Comp ε σ α := fun s => .ok a s

/-- Run one computation, then the next on its result. -/
protected def bind (x : Comp ε σ α) (f : α → Comp ε σ β) : Comp ε σ β := fun s => (x s).andThen f

instance : Monad (Comp ε σ) where
  pure := Comp.pure
  bind := Comp.bind

/-- Stop with an interrupt. -/
def raise (e : ε) : Comp ε σ α := fun s => .raise e s

/-- Out of fuel. -/
def timeout : Comp ε σ α := fun _ => .timeout

/-- Change the state. -/
def modify (f : σ → σ) : Comp ε σ Unit := fun s => .ok () (f s)

/-- A computation that is a function of the state it starts in. -/
def withState (f : σ → Comp ε σ α) : Comp ε σ α := fun s => f s s

/-- Answer an interrupt. -/
def handle (x : Comp ε σ α) (handler : ε → Comp ε σ α) : Comp ε σ α := fun s =>
  match x s with
  | .ok a s' => .ok a s'
  | .raise e s' => handler e s'
  | .timeout => .timeout

/-- Change the state on every way out, as a `finally` clause does. -/
def finallyDo (x : Comp ε σ α) (leave : σ → σ) : Comp ε σ α := fun s =>
  match x s with
  | .ok a s' => .ok a (leave s')
  | .raise e s' => .raise e (leave s')
  | .timeout => .timeout

@[simp] theorem pure_apply (a : α) (s : σ) : (pure a : Comp ε σ α) s = .ok a s := rfl

@[simp] theorem bind_apply (x : Comp ε σ α) (f : α → Comp ε σ β) (s : σ) :
    (x >>= f) s = (x s).andThen f := rfl

variable {x y : Comp ε σ α}

/-- A sequence whose first part is known to finish goes on with its rest. -/
theorem bind_of_ok {f : α → Comp ε σ β} {a : α} {s t : σ}
    (known : x s = .ok a t) : (x >>= f) s = f a t := by
  rw [bind_apply, known]
  rfl

theorem pure_bind (a : α) (f : α → Comp ε σ β) : (pure a >>= f) = f a := rfl

theorem bind_assoc {γ : Type} (x : Comp ε σ α) (f : α → Comp ε σ β) (g : β → Comp ε σ γ) :
    (x >>= f >>= g) = x >>= fun a => f a >>= g := by
  funext s
  simp only [bind_apply]
  cases x s with
  | ok a s' => rfl
  | raise e s' => rfl
  | timeout => rfl

@[simp] theorem raise_apply (e : ε) (s : σ) : (raise e : Comp ε σ α) s = .raise e s := rfl

@[simp] theorem modify_apply (f : σ → σ) (s : σ) :
    (modify f : Comp ε σ Unit) s = .ok () (f s) := rfl

@[simp] theorem withState_apply (f : σ → Comp ε σ α) (s : σ) : withState f s = f s s := rfl

theorem finallyDo_ok {a : α} {s t : σ} (leave : σ → σ)
    (done : x s = .ok a t) : x.finallyDo leave s = .ok a (leave t) := by
  simp only [finallyDo, done]

/-- One computation says at most what another says, from every state. -/
def Below (x y : Comp ε σ α) : Prop := ∀ s, (x s).Below (y s)

theorem Below.refl (x : Comp ε σ α) : Below x x := fun _ => .refl _

theorem Below.timeout (x : Comp ε σ α) : Below timeout x := fun _ => .timeout _

theorem Below.bind {f g : α → Comp ε σ β} (first : Below x y)
    (rest : ∀ a, Below (f a) (g a)) : Below (x >>= f) (y >>= g) :=
  fun s => (first s).andThen fun a s' => rest a s'

theorem Below.handle {f g : ε → Comp ε σ α} (body : Below x y)
    (handlers : ∀ e, Below (f e) (g e)) : Below (x.handle f) (y.handle g) := by
  intro s
  unfold Comp.handle
  rcases body s with none | same
  · rw [none]
    exact .timeout _
  · rw [same]
    cases y s with
    | ok a s' => exact .refl _
    | raise e s' => exact handlers e s'
    | timeout => exact .refl _

theorem Below.finallyDo (body : Below x y) (leave : σ → σ) :
    Below (x.finallyDo leave) (y.finallyDo leave) := by
  intro s
  unfold Comp.finallyDo
  rcases body s with none | same
  · rw [none]
    exact .timeout _
  · rw [same]
    exact .refl _

theorem Below.withState {f g : σ → Comp ε σ α} (each : ∀ s, Below (f s) (g s)) :
    Below (withState f) (withState g) := fun s => each s s

end Comp

export Comp (bind_apply pure_apply raise timeout withState withState_apply)

export Outcome (andThen andThen_eq_ok)

end Koschei.Lib
