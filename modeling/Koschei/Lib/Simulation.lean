import Koschei.Lib.Computation
import Mathlib.Logic.Relation

/-!
# Computations simulated by a transition system

A computation says how it ends; a transition system goes from configuration to
configuration. `Leads` relates the two: from a configuration the system gets to
one that fits the result of the computation, or to one that fits its interrupt.
A computation that ran out of fuel asks for nothing.

The rules follow the sequencing operations, so a simulation is put together along
the way a computation is written.
-/

namespace Koschei.Lib

open Relation

variable {ε σ α β κ : Type}

/-- From `c` the system gets to where the outcome is: `arrives` says what a configuration
has to do with a result, `leaves` what it has to do with an interrupt. -/
def Leads (next : κ → κ → Prop) (arrives : α → σ → κ → Prop) (leaves : ε → σ → κ → Prop)
    (c : κ) : Outcome ε σ α → Prop
  | .ok a s => ∃ c', ReflTransGen next c c' ∧ arrives a s c'
  | .raise e s => ∃ c', ReflTransGen next c c' ∧ leaves e s c'
  | .timeout => True

namespace Leads

variable {next : κ → κ → Prop} {arrives : α → σ → κ → Prop} {arrives' : β → σ → κ → Prop}
  {leaves leaves' : ε → σ → κ → Prop} {c c' : κ} {s : σ}

/-- Arrive where the system stands. -/
theorem here {a : α} (fits : arrives a s c) : Leads next arrives leaves c (.ok a s) :=
  ⟨c, .refl, fits⟩

/-- Leave where the system stands. -/
theorem leave {e : ε} (fits : leaves e s c) : Leads next arrives leaves c (.raise e s) :=
  ⟨c, .refl, fits⟩

variable {o : Outcome ε σ α}

/-- Steps of the system before the computation starts. -/
theorem after (steps : ReflTransGen next c c')
    (leads : Leads next arrives leaves c' o) : Leads next arrives leaves c o := by
  cases o with
  | ok a s =>
    obtain ⟨d, more, fits⟩ := leads
    exact ⟨d, steps.trans more, fits⟩
  | raise e s =>
    obtain ⟨d, more, fits⟩ := leads
    exact ⟨d, steps.trans more, fits⟩
  | timeout => trivial

section

variable (leads : Leads next arrives leaves c o)

include leads

/-- One computation after another: the second starts where the first arrives. -/
theorem bind {f : α → σ → Outcome ε σ β}
    (rest : ∀ a s d, arrives a s d → Leads next arrives' leaves' d (f a s))
    (leaving : ∀ e s d, leaves e s d → leaves' e s d) :
    Leads next arrives' leaves' c (o.andThen f) := by
  cases o with
  | ok a s =>
    obtain ⟨d, steps, fits⟩ := leads
    exact (rest a s d fits).after steps
  | raise e s =>
    obtain ⟨d, steps, fits⟩ := leads
    exact ⟨d, steps, leaving e s d fits⟩
  | timeout => trivial

/-- Steps of the system after the computation has its result. -/
theorem extend {arrives' : α → σ → κ → Prop}
    (more : ∀ a s d, arrives a s d → Leads next arrives' leaves' d (.ok a s))
    (leaving : ∀ e s d, leaves e s d → leaves' e s d) : Leads next arrives' leaves' c o := by
  have same : o.andThen .ok = o := by cases o <;> rfl
  exact same ▸ leads.bind more leaving

/-- Weaker demands on where the system gets to. -/
theorem mono {arrives' : α → σ → κ → Prop} (arriving : ∀ a s d, arrives a s d → arrives' a s d)
    (leaving : ∀ e s d, leaves e s d → leaves' e s d) : Leads next arrives' leaves' c o :=
  leads.extend (fun a s d fits => .here (arriving a s d fits)) leaving

end

variable {x : Comp ε σ α}

/-- An interrupt is answered where the system gets to with it. -/
theorem handle {handler : ε → Comp ε σ α} {arrives' : α → σ → κ → Prop}
    (leads : Leads next arrives leaves c (x s)) (arriving : ∀ a s d, arrives a s d → arrives' a s d)
    (answers : ∀ e s d, leaves e s d → Leads next arrives' leaves' d (handler e s)) :
    Leads next arrives' leaves' c (x.handle handler s) := by
  unfold Comp.handle
  cases outcome : x s with
  | ok a s' =>
    rw [outcome] at leads
    obtain ⟨d, steps, fits⟩ := leads
    exact ⟨d, steps, arriving a s' d fits⟩
  | raise e s' =>
    rw [outcome] at leads
    obtain ⟨d, steps, fits⟩ := leads
    exact (answers e s' d fits).after steps
  | timeout => trivial

/-- A change of the state on every way out. -/
theorem finallyDo {undo : σ → σ} {arrives' : α → σ → κ → Prop}
    (leads : Leads next arrives leaves c (x s))
    (arriving : ∀ a s d, arrives a s d → arrives' a (undo s) d)
    (leaving : ∀ e s d, leaves e s d → leaves' e (undo s) d) :
    Leads next arrives' leaves' c (x.finallyDo undo s) := by
  unfold Comp.finallyDo
  cases outcome : x s with
  | ok a s' =>
    rw [outcome] at leads
    obtain ⟨d, steps, fits⟩ := leads
    exact ⟨d, steps, arriving a s' d fits⟩
  | raise e s' =>
    rw [outcome] at leads
    obtain ⟨d, steps, fits⟩ := leads
    exact ⟨d, steps, leaving e s' d fits⟩
  | timeout => trivial

end Leads

end Koschei.Lib
