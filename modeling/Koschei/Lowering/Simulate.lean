import Koschei.Lowering.Mirror

/-!
# What it is to simulate a lowered action

A lowering action stands for the evaluation it was made from when, wherever it
was lowered in a finished function, the executor that starts at its first
instruction gets to where the evaluation gets: to the end of the action with the
value in its register, to a return, or to the target of the enclosing loop. `At`
collects what holds at every position on the way.

The rules of this module are for the pieces every form is made of: one part after
another, one instruction, a binding no source name reaches, a jump and a branch.
-/

namespace Koschei.Lowering

open Lib Ast Mir Filter Relation

variable {σ α β : Type}

/-- Where a piece of code starts. -/
structure Origin (σ : Type) where
  lowerer : Lowerer
  frame : Frame
  store : Store σ

/-- The executor stands where the lowerer stood at `M`, after code that started at `o`. -/
structure At (site : Site σ) (P : String → Prop) (o : Origin σ) (Γ : Scoping) (M : Lowerer)
    (state : State σ) (frame : Frame) (store : Store σ) : Prop where
  grown : Orderly P o.lowerer M
  ready : Ready M
  cut : Γ.flatten = M.scopes.flatten
  linked : Linked site.final Γ state frame store
  keeps : Keeps o.lowerer o.frame o.store frame store

/-- What holds when a piece of code is left: only the innermost scope may have grown. -/
def Left (site : Site σ) (o : Origin σ) (tail : Scoping) (state : State σ) (c : Config σ) : Prop :=
  (∃ head, Linked site.final (head :: tail) state c.frame c.store) ∧
    Keeps o.lowerer o.frame o.store c.frame c.store

/-- Where a signal takes the executor. Of faults nothing is said, nor of a loop signal
outside a loop or with a target that is no block. -/
def Exits (site : Site σ) (o : Origin σ) (tail : Scoping) : Signal → State σ → Config σ → Prop
  | .fault _, _, _ => True
  | .ret value, state, c => Left site o tail state c ∧ site.Returns value c.store c
  | .brk, state, c => ∀ targets ∈ o.lowerer.loopTargets.head?,
      targets.1 < site.final.nextBlock →
        Left site o tail state c ∧ c = site.start targets.1 c.frame c.store
  | .cont, state, c => ∀ targets ∈ o.lowerer.loopTargets.head?,
      targets.2 < site.final.nextBlock →
        Left site o tail state c ∧ c = site.start targets.2 c.frame c.store

/-- The evaluation's outcome is reached from a point of the code, or a signal leaves from it. -/
abbrev Goes (site : Site σ) (o : Origin σ) (tail : Scoping) (arrives : α → State σ → Config σ → Prop)
    (M : Lowerer) (frame : Frame) (store : Store σ) (outcome : Outcome Signal (State σ) α) : Prop :=
  Leads site.next arrives (Exits site o tail) (site.here M frame store) outcome

/-- The evaluation is simulated by the action: `arrives` says what the end of the action
has to do with a result. -/
def Runs (site : Site σ) (action : Lower β) (x : Eval σ α)
    (arrives : Origin σ → List (String × String) → Scoping → β → Lowerer → α → State σ →
      Config σ → Prop) : Prop :=
  ∀ L b L', action L = .ok b L' → Ready L → Embeds L' site.final →
    ∀ head tail state frame store, (head :: tail).flatten = L.scopes.flatten →
      Linked site.final (head :: tail) state frame store →
        Leads site.next (arrives ⟨L, frame, store⟩ head tail b L')
          (Exits site ⟨L, frame, store⟩ tail) (site.here L frame store) (x state)

section Arrivals

variable (site : Site σ) (P : String → Prop)

/-- The value is in its register. -/
def HasValue (o : Origin σ) (Γ : Scoping) (id : ValueId) (M : Lowerer) (value : Value)
    (state : State σ) (c : Config σ) : Prop :=
  ∃ frame store, c = site.here M frame store ∧ At site P o Γ M state frame store ∧
    frame.values id = some value

/-- The values are in their registers. -/
def HasValues (o : Origin σ) (Γ : Scoping) (ids : List ValueId) (M : Lowerer)
    (values : List Value) (state : State σ) (c : Config σ) : Prop :=
  ∃ frame store, c = site.here M frame store ∧ At site P o Γ M state frame store ∧
    Forall₂ (fun id value => frame.values id = some value) ids values

/-- The code has been run through. -/
def HasRun (o : Origin σ) (Γ : Scoping) (M : Lowerer) (state : State σ) (c : Config σ) : Prop :=
  ∃ frame store, c = site.here M frame store ∧ At site P o Γ M state frame store

end Arrivals

/-! ## Actions that simulate evaluations -/

section Simulations

variable (site : Site σ) (P : String → Prop)

/-- An expression. -/
structure SimExpr (action : Lower ValueId) (x : Eval σ Value) : Prop where
  lowers : LowersExpr P action
  runs : Runs site action x fun o head tail id M => HasValue site P o (head :: tail) id M

/-- Some expressions. -/
structure SimAll (action : Lower (List ValueId)) (x : Eval σ (List Value)) : Prop where
  lowers : LowersAll P action
  runs : Runs site action x fun o head tail ids M => HasValues site P o (head :: tail) ids M

/-- Statements in a scope of their own. -/
structure SimBlock (action : Lower Unit) (x : Eval σ Value) : Prop where
  lowers : LowersBlock P action
  runs : Runs site action x fun o head tail _ M _ => HasRun site P o (head :: tail) M

/-- Statements in a scope of their own, with their value. -/
structure SimBranch (action : Lower (Option ValueId)) (x : Eval σ Value) : Prop where
  lowers : LowersBranch P action
  runs : Runs site action x fun o head tail result M value state c =>
    ∃ id ∈ result, HasValue site P o (head :: tail) id M value state c

/-- Statements. -/
structure SimStmt (action : Lower Unit) (x : Eval σ Value) : Prop where
  lowers : LowersStmt P action
  runs : Runs site action x fun o _ tail _ M _ state c =>
    ∃ head, HasRun site P o (head :: tail) M state c

/-- Statements with their value. -/
structure SimTail (action : Lower (Option ValueId)) (x : Eval σ Value) : Prop where
  lowers : LowersTail P action
  runs : Runs site action x fun o _ tail result M value state c =>
    ∃ id ∈ result, ∃ head, HasValue site P o (head :: tail) id M value state c

end Simulations

/-! ## Positions -/

variable {site : Site σ} {P : String → Prop} {o : Origin σ} {Γ Γ' tail : Scoping}
  {head : List (String × String)} {L M N : Lowerer} {state state' : State σ} {frame frame' : Frame}
  {store store' : Store σ} {signal : Signal} {c : Config σ}

/-- A signal, told from another place with the same targets. -/
theorem Exits.congr {o o' : Origin σ} (exit : Exits site o tail signal state c)
    (loops : o.lowerer.loopTargets = o'.lowerer.loopTargets)
    (keeps : Keeps o.lowerer o.frame o.store c.frame c.store →
      Keeps o'.lowerer o'.frame o'.store c.frame c.store) :
    Exits site o' tail signal state c := by
  have leave (left : Left site o tail state c) : Left site o' tail state c := ⟨left.1, keeps left.2⟩
  cases signal with
  | fault fault => trivial
  | ret value => exact ⟨leave exit.1, exit.2⟩
  | brk =>
    intro targets known made
    obtain ⟨left, there⟩ := exit targets (by rw [loops]; exact known) made
    exact ⟨leave left, there⟩
  | cont =>
    intro targets known made
    obtain ⟨left, there⟩ := exit targets (by rw [loops]; exact known) made
    exact ⟨leave left, there⟩

namespace At

theorem refl (ready : Ready L) (cut : Γ.flatten = L.scopes.flatten)
    (linked : Linked site.final Γ state frame store) :
    At site P ⟨L, frame, store⟩ Γ L state frame store :=
  ⟨.refl ready, ready, cut, linked, .refl⟩

/-- Code that starts where other code has arrived. -/
theorem trans (first : At site P o Γ M state frame store)
    (second : At site P ⟨M, frame, store⟩ Γ' N state' frame' store') :
    At site P o Γ' N state' frame' store' :=
  ⟨first.grown.trans second.grown, second.ready, second.cut, second.linked,
    first.keeps.trans first.grown second.keeps⟩

/-- A signal of code that starts where other code has arrived. -/
theorem exits (first : At site P o Γ M state frame store)
    (exit : Exits site ⟨M, frame, store⟩ tail signal state' c) :
    Exits site o tail signal state' c :=
  exit.congr first.grown.loops fun keeps => first.keeps.trans first.grown keeps

/-- The same moment, told at another position: both are reached by a jump. -/
theorem move (here : At site P o Γ M state frame store) (grown : Orderly P o.lowerer N)
    (ready : Ready N) (scopes : N.scopes = M.scopes) : At site P o Γ N state frame store :=
  ⟨grown, ready, by rw [here.cut, scopes], here.linked, here.keeps⟩

/-- A register of an earlier position is still there. -/
theorem value (here : At site P ⟨M, frame, store⟩ Γ N state' frame' store') {id : ValueId}
    {value : Value} (known : frame.values id = some value) (low : id < (M.nextValue : Int)) :
    frame'.values id = some value := by
  rw [here.keeps.values id low, known]

end At

variable
  {arrives : Origin σ → List (String × String) → Scoping → β → Lowerer → α → State σ → Config σ → Prop}

variable {action : Lower β} {x : Eval σ α}

/-- One part after another. -/
theorem Runs.andThen {γ : Type} {f : α → Eval σ γ} (runs : Runs site action x arrives) {b : β}
    (lowered : action M = .ok b N) (here : At site P o (head :: tail) M state frame store)
    (part : Embeds N site.final) {arrives' : γ → State σ → Config σ → Prop}
    (rest : ∀ a state' c, arrives ⟨M, frame, store⟩ head tail b N a state' c →
      Leads site.next arrives' (Exits site o tail) c (f a state')) :
    Goes site o tail arrives' M frame store ((x >>= f) state) :=
  (runs M b N lowered here.ready part head tail state frame store here.cut here.linked).bind
    rest fun _ _ _ exit => here.exits exit

theorem Runs.last (runs : Runs site action x arrives) {b : β}
    (lowered : action M = .ok b N) (here : At site P o (head :: tail) M state frame store)
    (part : Embeds N site.final) {arrives' : α → State σ → Config σ → Prop}
    (rest : ∀ a state' c, arrives ⟨M, frame, store⟩ head tail b N a state' c →
      Leads site.next arrives' (Exits site o tail) c (.ok a state')) :
    Goes site o tail arrives' M frame store (x state) :=
  (runs M b N lowered here.ready part head tail state frame store here.cut here.linked).extend
    rest fun _ _ _ exit => here.exits exit

namespace At

variable (here : At site P o (head :: tail) M state frame store)

include here

variable {x : Eval σ Value} {action : Lower ValueId} {id : ValueId}

theorem expr {f : Value → Eval σ α} (part : SimExpr site P action x) (lowered : action M = .ok id N)
    (embeds : Embeds N site.final) {arrives : α → State σ → Config σ → Prop}
    (rest : ∀ value state' frame' store', At site P o (head :: tail) N state' frame' store' →
      At site P ⟨M, frame, store⟩ (head :: tail) N state' frame' store' →
      frame'.values id = some value →
      Goes site o tail arrives N frame' store' (f value state')) :
    Goes site o tail arrives M frame store ((x >>= f) state) := by
  refine part.runs.andThen lowered here embeds ?_
  rintro value state' _ ⟨frame', store', rfl, there, known⟩
  exact rest value state' frame' store' (here.trans there) there known

variable {arrives : Value → State σ → Config σ → Prop}

/-- An expression, and steps after it. -/
theorem exprLast (part : SimExpr site P action x)
    (lowered : action M = .ok id N) (embeds : Embeds N site.final)
    (rest : ∀ value state' frame' store', At site P o (head :: tail) N state' frame' store' →
      At site P ⟨M, frame, store⟩ (head :: tail) N state' frame' store' →
      frame'.values id = some value →
      Goes site o tail arrives N frame' store' (.ok value state')) :
    Goes site o tail arrives M frame store (x state) := by
  refine part.runs.last lowered here embeds ?_
  rintro value state' _ ⟨frame', store', rfl, there, known⟩
  exact rest value state' frame' store' (here.trans there) there known

/-- Statements in a scope of their own, and steps after them. -/
theorem block {action : Lower Unit} (part : SimBlock site P action x)
    {u : Unit} (lowered : action M = .ok u N) (embeds : Embeds N site.final)
    (rest : ∀ value state' frame' store', At site P o (head :: tail) N state' frame' store' →
      Goes site o tail arrives N frame' store' (.ok value state')) :
    Goes site o tail arrives M frame store (x state) := by
  refine part.runs.last lowered here embeds ?_
  rintro value state' _ ⟨frame', store', rfl, there⟩
  exact rest value state' frame' store' (here.trans there)

theorem branch {action : Lower (Option ValueId)}
    (part : SimBranch site P action x) {result : Option ValueId}
    (lowered : action M = .ok result N) (embeds : Embeds N site.final)
    (rest : ∀ id value state' frame' store', result = some id →
      At site P o (head :: tail) N state' frame' store' →
      At site P ⟨M, frame, store⟩ (head :: tail) N state' frame' store' →
      frame'.values id = some value →
      Goes site o tail arrives N frame' store' (.ok value state')) :
    Goes site o tail arrives M frame store (x state) := by
  refine part.runs.last lowered here embeds ?_
  rintro value state' _ ⟨id, present, frame', store', rfl, there, known⟩
  exact rest id value state' frame' store' present (here.trans there) there known

/-- Some expressions, and what follows them. -/
theorem all {action : Lower (List ValueId)} {x : Eval σ (List Value)}
    {f : List Value → Eval σ α} (parts : SimAll site P action x) {ids : List ValueId}
    (lowered : action M = .ok ids N) (embeds : Embeds N site.final)
    {arrives : α → State σ → Config σ → Prop}
    (rest : ∀ values state' frame' store', At site P o (head :: tail) N state' frame' store' →
      At site P ⟨M, frame, store⟩ (head :: tail) N state' frame' store' →
      Forall₂ (fun id value => frame'.values id = some value) ids values →
      Goes site o tail arrives N frame' store' (f values state')) :
    Goes site o tail arrives M frame store ((x >>= f) state) := by
  refine parts.runs.andThen lowered here embeds ?_
  rintro values state' _ ⟨frame', store', rfl, there, known⟩
  exact rest values state' frame' store' (here.trans there) there known

variable {i : ValueId → Instruction}

/-- An instruction that puts a value into a new register and changes nothing else. -/
theorem emitPure {value : Value} (embeds : Embeds (M.bump.push (i (M.nextValue : Int))) site.final)
    (executes : ∀ fuel, executeInstruction site.machine (site.calls fuel) site.moduleKey frame
      (i (M.nextValue : Int)) store = .ok (frame.set (M.nextValue : Int) value) store) :
    site.next (site.here M frame store) (site.here (M.bump.push (i (M.nextValue : Int)))
        (frame.set (M.nextValue : Int) value) store) ∧
      At site P ⟨M, frame, store⟩ (head :: tail) (M.bump.push (i (M.nextValue : Int))) state
        (frame.set (M.nextValue : Int) value) store := by
  have grown := (Regular.refl (P := P) here.ready).emitValue (i (M.nextValue : Int))
  refine ⟨Site.next_push (L := M.bump) embeds here.ready.inside (.of_forall executes), ?_⟩
  exact ⟨grown.orderly here.ready, grown.ready here.ready, here.cut, here.linked.set _ _,
    Keeps.refl.set le_rfl _⟩

/-- An instruction that puts the result of an operation into a new register. -/
theorem emitValue {x : Exec σ Value} {y : Nat → Exec σ Value}
    (embeds : Embeds (M.bump.push (i (M.nextValue : Int))) site.final) (mirrors : Mirrors x y)
    (executes : ∀ fuel, executeInstruction site.machine (site.calls fuel) site.moduleKey frame
      (i (M.nextValue : Int)) = frame.assign (M.nextValue : Int) (y fuel)) :
    Leads site.next
      (HasValue site P o (head :: tail) (M.nextValue : Int) (M.bump.push (i (M.nextValue : Int))))
      (Exits site o tail) (site.here M frame store) (exec x state) := by
  unfold exec
  cases done : x state.store with
  | timeout => trivial
  | raise fault s' => exact .leave trivial
  | ok value s' =>
    obtain ⟨t', alike, kept, ran⟩ := mirrors state.store store value s'
      ⟨here.linked.host, here.linked.depth⟩ done
    have grown := (Regular.refl (P := P) here.ready).emitValue (i (M.nextValue : Int))
    have stepped : site.next (site.here M frame store)
        (site.here (M.bump.push (i (M.nextValue : Int)))
          (frame.set (M.nextValue : Int) value) t') := by
      refine Site.next_push (L := M.bump) embeds here.ready.inside ?_
      filter_upwards [ran] with fuel ran
      rw [executes, Frame.assign, bind_apply, ran]
      rfl
    refine ⟨_, .single stepped, _, _, rfl, here.trans ⟨grown.orderly here.ready,
      grown.ready here.ready, here.cut, (here.linked.later alike.host alike.depth).set _ _,
      ?_⟩, by simp [Frame.set]⟩
    exact (Keeps.refl.later kept).set le_rfl _

end At

end Koschei.Lowering
