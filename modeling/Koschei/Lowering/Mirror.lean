import Koschei.Lowering.Link

/-!
# Operations of the runtime in both lanes

An operation of the shared runtime reads and changes the host state. The two
lanes run it on stores that agree on the host state and the call depth; the
executor's store also holds the objects of the calls that are under way. `Mirrors`
says that an operation which completes in one lane completes in the other, with
the same result and the same host state, and leaves the objects that existed as
they were.

Operations that call functions back do so with some fuel. The calls that are
mirrored are given as a hypothesis, so the fuel only has to be large enough.
-/

namespace Koschei.Lowering

open Lib Ast Mir Filter Relation

variable {σ α β : Type}

/-- Stores that agree on the host state and the call depth. -/
structure Alike (s t : Store σ) : Prop where
  host : t.host = s.host
  depth : t.depth = s.depth

/-- What completes as `x` completes as `y` with all large amounts of fuel. -/
def Mirrors (x : Exec σ α) (y : Nat → Exec σ α) : Prop := ∀ s t a s', Alike s t → x s = .ok a s' →
    ∃ t', Alike s' t' ∧ t.objects <+: t'.objects ∧ ∀ᶠ fuel in atTop, y fuel t = .ok a t'

/-- An operation that does not call back and does not look at objects. -/
abbrev Shared (x : Exec σ α) : Prop := Mirrors x fun _ => x

/-- The calls of a lane that never fails, and the calls of the executor. -/
structure Answers (call : Caller σ) (calls : Nat → Caller σ) : Prop where
  mirrors : ∀ moduleKey name arguments,
    Mirrors (call moduleKey name arguments) fun fuel => calls fuel moduleKey name arguments
  silent : ∀ moduleKey name arguments s fault s', call moduleKey name arguments s ≠ .raise fault s'

namespace Mirrors

variable {x : Exec σ α} {y : Nat → Exec σ α}

theorem pure (a : α) : Shared (Pure.pure a : Exec σ α) := by
  rintro s t _ _ alike ⟨⟩
  exact ⟨t, alike, prefix_rfl, .of_forall fun _ => rfl⟩

theorem raise (fault : Fault) : Mirrors (raise fault) y := by
  intro s t a s' alike done
  cases done

theorem bind {f : α → Exec σ β} {g : α → Nat → Exec σ β} (first : Mirrors x y)
    (rest : ∀ a, Mirrors (f a) (g a)) :
    Mirrors (x >>= f) fun fuel => y fuel >>= fun a => g a fuel := by
  intro s t b s' alike done
  obtain ⟨a, s₁, ran, done⟩ := andThen_eq_ok.mp done
  obtain ⟨t₁, alike₁, kept, ran'⟩ := first s t a s₁ alike ran
  obtain ⟨t', alike', kept', done'⟩ := rest a s₁ t₁ b s' alike₁ done
  refine ⟨t', alike', kept.trans kept', ?_⟩
  filter_upwards [ran', done'] with fuel ran done
  exact andThen_eq_ok.mpr ⟨a, t₁, ran, done⟩

theorem lift (result : Except Fault α) : Shared (Koschei.lift result : Exec σ α) := by
  cases result with
  | ok a => exact pure a
  | error fault => exact raise fault

theorem ask (read : σ → α) : Shared (Koschei.ask read) := by
  rintro s t _ _ alike ⟨⟩
  refine ⟨t, alike, prefix_rfl, .of_forall fun _ => ?_⟩
  simp only [Koschei.ask, alike.host]

theorem askLift (read : σ → Except Fault α) : Shared (Koschei.askLift read) := by
  intro s t a s' alike done
  unfold Koschei.askLift at done
  cases known : read s.host with
  | error fault =>
    rw [known] at done
    cases done
  | ok b =>
    rw [known] at done
    cases done
    refine ⟨t, alike, prefix_rfl, .of_forall fun _ => ?_⟩
    simp only [Koschei.askLift, alike.host, known]

theorem onHost (change : σ → α × σ) : Shared (Koschei.onHost change) := by
  rintro s t _ _ alike ⟨⟩
  refine ⟨{ t with host := (change t.host).2 }, ⟨?_, alike.depth⟩, prefix_rfl,
    .of_forall fun _ => ?_⟩
  · simp only [alike.host]
  · simp only [Koschei.onHost, alike.host]

/-- An operation that is a function of the host state it starts in. -/
theorem withState {f : Store σ → Exec σ α} (same : ∀ s t, Alike s t → f t = f s)
    (each : ∀ s, Shared (f s)) : Shared (withState f) := by
  intro s t a s' alike done
  have ran := each s s t a s' alike done
  simpa only [withState_apply, same s t alike] using ran

variable {call : Caller σ} {calls : Nat → Caller σ}

section

variable (answers : Answers call calls)

include answers

theorem run (primitive : Prim σ) :
    Mirrors (primitive.run call) fun fuel => primitive.run (calls fuel) := by
  induction primitive with
  | done result host =>
    cases result with
    | error fault =>
      intro s t a s' alike done
      cases done
    | ok value =>
      rintro s t _ _ alike ⟨⟩
      exact ⟨{ t with host := host }, ⟨rfl, alike.depth⟩, prefix_rfl, .of_forall fun _ => rfl⟩
  | call moduleKey name arguments host resume ih =>
    intro s t a s' alike done
    simp only [Prim.run] at done
    have alike₀ : Alike { s with host := host } { t with host := host } := ⟨rfl, alike.depth⟩
    cases called : call moduleKey name arguments { s with host := host } with
    | timeout =>
      rw [called] at done
      cases done
    | raise fault s₁ => exact absurd called (answers.silent _ _ _ _ _ _)
    | ok value s₁ =>
      rw [called] at done
      obtain ⟨t₁, alike₁, kept, called'⟩ :=
        answers.mirrors moduleKey name arguments _ _ value s₁ alike₀ called
      obtain ⟨t', alike', kept', done'⟩ := ih (.ok value) s₁.host s₁ t₁ a s' alike₁ done
      refine ⟨t', alike', kept.trans kept', ?_⟩
      filter_upwards [called', done'] with fuel called done
      simp only [Prim.run, called, alike₁.host]
      exact done

theorem runPrim (primitive : σ → Prim σ) : Mirrors (Koschei.runPrim call primitive) fun fuel =>
      Koschei.runPrim (calls fuel) primitive := by
  intro s t a s' alike done
  obtain ⟨t', alike', kept, done'⟩ := run answers (primitive s.host) s t a s' alike done
  refine ⟨t', alike', kept, ?_⟩
  filter_upwards [done'] with fuel done
  simpa only [Koschei.runPrim, alike.host] using done

theorem invoke (runtime : Runtime σ) (callee : Value) (arguments : List Value) :
    Mirrors (Koschei.invoke runtime call callee arguments) fun fuel =>
      Koschei.invoke runtime (calls fuel) callee arguments := by
  cases callee with
  | function moduleKey name => exact answers.mirrors moduleKey name arguments
  | _ => exact runPrim answers _

theorem invokeCapability (runtime : Runtime σ) (receiver : Value)
    (arguments : List Value) (capabilityType method canonicalEffect powerDomain : String) :
    Mirrors
      (Mir.invokeCapability runtime call receiver arguments capabilityType method
        canonicalEffect powerDomain)
      fun fuel => Mir.invokeCapability runtime (calls fuel) receiver arguments capabilityType
        method canonicalEffect powerDomain :=
  bind (askLift _) fun _ => bind (askLift _) fun _ => runPrim answers _

end

end Mirrors

/-! ## Operations that do not call back -/

namespace Shared

variable (runtime : Runtime σ)

theorem bind {x : Exec σ α} {f : α → Exec σ β} (first : Shared x) (rest : ∀ a, Shared (f a)) :
    Shared (x >>= f) := Mirrors.bind first rest

theorem ite {condition : Prop} [Decidable condition] {x y : Exec σ α} (first : Shared x)
    (second : Shared y) : Shared (if condition then x else y) := by
  split
  · exact first
  · exact second

theorem unaryValue (operator : UnaryOperator) (operand : Value) :
    Shared (Mir.unaryValue runtime operator operand) := by
  unfold Mir.unaryValue
  split
  · exact .pure _
  · cases operator with
    | not => exact .pure _
    | neg =>
      dsimp only
      split
      · exact ite (.pure _) (.pure _)
      · exact .lift _

theorem checkedArith (op : ArithOp) (text : String) (left right : Value) :
    Shared (Mir.checkedArith runtime op text left right) := by
  unfold Mir.checkedArith
  split
  · exact ite (.pure _) (.pure _)
  · exact .lift _

theorem strictBinary (operator : BinaryOperator) (left right : Value) :
    Shared (Mir.strictBinary runtime operator left right) := by
  unfold Mir.strictBinary
  cases operator with
  | add => exact checkedArith runtime .add "+" left right
  | sub => exact checkedArith runtime .sub "-" left right
  | mul => exact checkedArith runtime .mul "*" left right
  | div =>
    refine bind (.askLift _) fun zero => ite (.pure _) ?_
    split
    · exact ite (.pure _) (.pure _)
    · exact .lift _
  | rem =>
    dsimp only
    split
    · exact ite (.pure _) (.pure _)
    · exact .raise _
  | and => exact .raise _
  | or => exact .raise _
  | _ => exact bind (.askLift _) fun _ => .pure _

theorem anyCapability (values : List Value) : Shared (Mir.anyCapability runtime values) := by
  induction values with
  | nil => exact .pure _
  | cons value values ih => exact bind (.ask _) fun _ => ite (.pure _) ih

theorem makeList (items : List Value) : Shared (Mir.makeList runtime items) :=
  bind (anyCapability runtime items) fun _ => ite (.raise _) (.pure _)

theorem constructWith (contract : String × String × List String) (payload : Value) :
    Shared (Mir.constructWith runtime contract payload) :=
  bind (.ask _) fun _ => ite (.raise _) (.pure _)

theorem memberValue (receiver : Value) (name : String) :
    Shared (Mir.memberValue runtime receiver name) := by
  unfold Mir.memberValue
  split
  · exact .pure _
  · exact .askLift _

theorem requireMap (value : Value) : Shared (Mir.requireMap value : Exec σ _) := by
  unfold Mir.requireMap
  split
  · exact .pure _
  · exact .raise _

theorem requireKey (operation : String) (key : Value) :
    Shared (Mir.requireKey operation key : Exec σ _) := by
  unfold Mir.requireKey
  split
  · exact .pure _
  · exact .raise _

theorem mapGet (value key : Value) : Shared (Mir.mapGet value key : Exec σ _) := by
  refine bind (requireMap value) fun entries => bind (requireKey _ key) fun text => ?_
  split
  · exact .pure _
  · exact .pure _

theorem mapSet (value key item : Value) : Shared (Mir.mapSet runtime value key item) :=
  bind (requireMap value) fun _ => bind (requireKey _ key) fun _ =>
    bind (.ask _) fun _ => ite (.raise _) (.pure _)

theorem mapKeys (value : Value) : Shared (Mir.mapKeys value : Exec σ _) :=
  bind (requireMap value) fun _ => .pure _

theorem mapContains (value key : Value) : Shared (Mir.mapContains value key : Exec σ _) :=
  bind (requireMap value) fun _ => bind (requireKey _ key) fun _ => .pure _

theorem structFieldSet (receiver : Value) (fieldName : String) (value : Value) :
    Shared (Mir.structFieldSet runtime receiver fieldName value) := by
  refine .withState (fun s t alike => by rw [alike.host]) fun s => ?_
  split
  · exact .raise _
  · split
    · exact .raise _
    · split
      · exact .raise _
      · refine ite (.raise _) (bind (.ask _) fun _ => ite (.raise _) (ite (.raise _) ?_))
        refine bind (.ask _) fun matched => ?_
        split
        exact ite (bind (.onHost _) fun _ => .pure _) (bind (.ask _) fun _ => .raise _)

end Shared

end Koschei.Lowering
