import Koschei.Lowering.Builders

/-!
# Scopes and statements

A block has a scope of its own on both sides, and is left on every way out of it.
Statements are lowered one after the other; what follows a terminator is not
lowered, and an evaluation never comes there.
-/

namespace Koschei.Lowering

open Lib Ast Mir Filter Relation

variable {σ α β : Type} {site : Site σ} {P : String → Prop} {o : Origin σ} {tail : Scoping}
  {head : List (String × String)} {L M N : Lowerer} {state : State σ} {frame : Frame}
  {store : Store σ}

/-! ## Scopes -/

/-- Inside a new scope, the same can be reached. -/
theorem visible_enter (L : Lowerer) : visible { L with scopes := [] :: L.scopes } = visible L := by
  simp [visible]

/-- What held inside a scope holds after it is left. -/
theorem At.leave {inner : List (String × String)} {frame' : Frame} {store' : Store σ}
    (here : At site P ⟨{ L with scopes := [] :: L.scopes }, frame, store⟩
      (inner :: head :: tail) N state frame' store') (ready : Ready L)
    (cut : (head :: tail).flatten = L.scopes.flatten) :
    At site P ⟨L, frame, store⟩ (head :: tail) { N with scopes := N.scopes.tail }
      { state with scopes := state.scopes.tail } frame' store' := by
  obtain ⟨shape, scopes, loops⟩ := here.grown.leave
  have within : Within P L { N with scopes := N.scopes.tail } := ⟨shape, scopes, loops⟩
  refine ⟨within.orderly ready, within.ready ready here.ready.free, ?_, here.linked.leave,
    here.keeps.congr le_rfl (Subset.refl _) (visible_enter L ▸ Subset.refl _)⟩
  rw [cut, scopes]

theorem Exits.leave {signal : Signal} {c : Config σ}
    (exit : Exits site ⟨{ L with scopes := [] :: L.scopes }, frame, store⟩ (head :: tail) signal
      state c) :
    Exits site ⟨L, frame, store⟩ tail signal { state with scopes := state.scopes.tail } c := by
  have leave (left : Left site ⟨{ L with scopes := [] :: L.scopes }, frame, store⟩ (head :: tail)
      state c) :
      Left site ⟨L, frame, store⟩ tail { state with scopes := state.scopes.tail } c := by
    obtain ⟨⟨inner, linked⟩, keeps⟩ := left
    exact ⟨⟨head, linked.leave⟩,
      keeps.congr le_rfl (Subset.refl _) (visible_enter L ▸ Subset.refl _)⟩
  cases signal with
  | fault fault => trivial
  | ret value => exact ⟨leave exit.1, exit.2⟩
  | brk =>
    intro targets known made
    obtain ⟨left, there⟩ := exit targets known made
    exact ⟨leave left, there⟩
  | cont =>
    intro targets known made
    obtain ⟨left, there⟩ := exit targets known made
    exact ⟨leave left, there⟩

/-- Code in a scope of its own. -/
theorem Runs.inScope {action : Lower β} {x : Eval σ α}
    {arrives arrives' : Origin σ → List (String × String) → Scoping → β → Lowerer → α →
      State σ → Config σ → Prop} (runs : Runs site action x arrives)
    (leaves : ∀ L b N head tail frame store a state c, Ready L →
      (head :: tail).flatten = L.scopes.flatten →
      arrives ⟨{ L with scopes := [] :: L.scopes }, frame, store⟩ [] (head :: tail) b N a state c →
      arrives' ⟨L, frame, store⟩ head tail b { N with scopes := N.scopes.tail } a
        { state with scopes := state.scopes.tail } c) :
    Runs site (inScope action) (Ast.inScope x) arrives' := by
  intro L b L' done ready part head tail state frame store cut linked
  obtain ⟨N, lowered, rfl⟩ := inScope_ok.mp done
  have partN : Embeds N site.final := part.before rfl rfl (Subset.refl _)
  have ran := runs _ _ _ lowered ready.enter partN [] (head :: tail) _ frame store
    (by simpa using cut) linked.enter
  refine ran.finallyDo ?_ ?_
  · intro a state' c arrived
    exact leaves L b N head tail frame store a state' c ready cut arrived
  · intro signal state' c exit
    exact exit.leave

variable {action : Lower Unit} {x : Eval σ Value}

theorem SimStmt.inScope
    (body : SimStmt site P action x) : SimBlock site P (inScope action) (Ast.inScope x) where
  lowers := body.lowers.inScope
  runs := by
    refine body.runs.inScope ?_
    rintro L _ N head tail frame store _ state c ready cut ⟨inner, frame', store', rfl, here⟩
    exact ⟨frame', store', rfl, here.leave ready cut⟩

variable {action : Lower (Option ValueId)}

theorem SimTail.inScope
    (body : SimTail site P action x) : SimBranch site P (inScope action) (Ast.inScope x) where
  lowers := body.lowers.inScope
  runs := by
    refine body.runs.inScope ?_
    rintro L result N head tail frame store value state c ready cut
      ⟨id, isId, inner, frame', store', rfl, here, known⟩
    exact ⟨id, isId, frame', store', rfl, here.leave ready cut, known⟩

/-! ## Changes of shape -/

theorem SimExpr.present {action : Lower ValueId}
    (part : SimExpr site P action x) : SimBranch site P (present action) x where
  lowers := part.lowers.present
  runs := by
    intro L result L' done ready embeds head tail state frame store cut linked
    obtain ⟨id, M, lowered, done⟩ := bind_ok.mp done
    obtain ⟨rfl, rfl⟩ := pure_ok.mp done
    refine (At.refl ready cut linked).exprLast part lowered embeds ?_
    intro value state' frame' store' there _ known
    exact .here ⟨id, rfl, frame', store', rfl, there, known⟩

variable {x : Eval σ Value}

theorem SimBranch.toTail (part : SimBranch site P action x) : SimTail site P action x where
  lowers := part.lowers.tail
  runs := by
    intro L result L' done ready embeds head tail state frame store cut linked
    refine (At.refl ready cut linked).branch part done embeds ?_
    intro id value state' frame' store' isId there _ known
    exact .here ⟨id, isId, head, frame', store', rfl, there, known⟩

variable {action : Lower Unit}

theorem SimBlock.toStmt (part : SimBlock site P action x) : SimStmt site P action x where
  lowers := part.lowers.stmt
  runs := by
    intro L u L' done ready embeds head tail state frame store cut linked
    refine (At.refl ready cut linked).block part done embeds ?_
    intro value state' frame' store' there
    exact .here ⟨head, frame', store', rfl, there⟩

/-- Code that runs into its own end only when it is left before. -/
theorem SimBlock.absent
    (part : SimBlock site P action x) (leaves : ∀ state value state', x state ≠ .ok value state') :
    SimTail site P (absent action) x where
  lowers := part.lowers.absent
  runs := by
    intro L result L' done ready embeds head tail state frame store cut linked
    obtain ⟨u, M, lowered, done⟩ := bind_ok.mp done
    obtain ⟨rfl, rfl⟩ := pure_ok.mp done
    have ran := part.runs L u _ lowered ready embeds head tail state frame store cut linked
    cases outcome : x state with
    | ok value state' => exact absurd outcome (leaves state value state')
    | raise signal state' =>
      rw [outcome] at ran
      exact ran
    | timeout => trivial

theorem SimExpr.toStmt {action : Lower ValueId} (part : SimExpr site P action x) :
    SimBlock site P (do let _ ← action) x where
  lowers := by
    intro L u L' done ready
    obtain ⟨id, M, lowered, done⟩ := bind_ok.mp done
    obtain ⟨-, rfl⟩ := pure_ok.mp done
    exact (part.lowers _ _ _ lowered ready).1.within
  runs := by
    intro L u L' done ready embeds head tail state frame store cut linked
    obtain ⟨id, M, lowered, done⟩ := bind_ok.mp done
    obtain ⟨-, rfl⟩ := pure_ok.mp done
    refine (At.refl ready cut linked).exprLast part lowered embeds ?_
    intro value state' frame' store' there _ known
    exact .here ⟨frame', store', rfl, there⟩

/-- The value of a statement that has none. -/
theorem SimExpr.unit : SimExpr site P emitUnit (pure .unit) := by
  rw [← exec_pure]
  exact SimExpr.emitValue (Mirrors.pure Value.unit) fun frame target fuel => rfl

/-! ## Names -/

theorem At.define (generated : ∀ name, Generated name → P name)
    (here : At site P o (head :: tail) M state frame store) {source internal : String}
    (declared : P source) (named : newBindingName source M = .ok internal N) {id : ValueId}
    {isMutable : Bool} {type : TypeNode} {value : Value}
    (embeds : Embeds (N.push (.bind internal id isMutable type)) site.final)
    (known : frame.values id = some value) :
    site.next (site.here M frame store)
        (site.here (N.push (.bind internal id isMutable type))
          (frame.bind internal ⟨value, isMutable⟩) store) ∧
      At site P ⟨M, frame, store⟩ (((source, internal) :: head) :: tail)
        (N.push (.bind internal id isMutable type))
        { state with scopes := bindName source ⟨value, isMutable⟩ state.scopes }
        (frame.bind internal ⟨value, isMutable⟩) store := by
  have grown := bindingName_orderly generated declared named here.ready
  obtain ⟨unused, -, number, rfl⟩ := newBindingName_ok named
  have pushed := grown.push (i := .bind internal id isMutable type) here.ready.free
  have used : internal ∈ site.final.used := embeds.used (by simp)
  have hides : internal ∉ (head :: tail).flatten.map snd :=
    here.ready.lexical.hides unused here.cut
  refine ⟨?_, pushed, pushed.ready here.ready (by simpa using here.ready.free), ?_,
    here.linked.define hides used _, Keeps.refl.bind (fun old => absurd old unused) _⟩
  · refine Site.next_push (L := (M.take internal number).scope source internal) embeds
      here.ready.inside (.of_forall fun fuel => ?_)
    simp only [executeInstruction, read_known known, Comp.pure_bind, pure_apply]
  · obtain ⟨scope, scopes, form⟩ := List.exists_cons_of_ne_nil here.ready.lexical.nonempty
    have cut := here.cut
    rw [form] at cut
    simp only [Lowerer.push_scopes, Lowerer.scope, Lowerer.take_scopes, form, bindSource]
    simpa using cut

/-- `let`. -/
theorem SimStmt.letIn (generated : ∀ name, Generated name → P name) {value : Lower ValueId}
    (part : SimExpr site P value x) {name : String} (declared : P name)
    (isMutable : Bool) (type : TypeNode) :
    SimStmt site P (lowerLet name isMutable value type) (do
        let result ← x
        define name ⟨result, isMutable⟩
        pure .unit) where
  lowers L u L' done ready :=
    (LowersStmt.letIn generated part.lowers declared isMutable type done ready).1
  runs := by
    intro L u L' done ready embeds head tail state frame store cut linked
    obtain ⟨id, M, lowered, done⟩ := bind_ok.mp done
    obtain ⟨internal, N, named, done⟩ := bind_ok.mp done
    obtain ⟨free, rfl⟩ := emit_ok.mp done
    have partM : Embeds M site.final := by
      obtain ⟨-, -, number, rfl⟩ := newBindingName_ok named
      exact (embeds.before_push free).before rfl rfl (by simp)
    refine (At.refl ready cut linked).expr part lowered partM ?_
    intro value state' frame' store' there _ known
    obtain ⟨stepped, defined⟩ := there.define generated declared named embeds known
    exact .after (.single stepped) (.here ⟨_, _, _, rfl, there.trans defined⟩)

/-! ## Statements that leave -/

/-- `return`. -/
theorem SimBlock.ret {value : Option (Lower ValueId)} {x : Option (Eval σ Value)}
    (part : Option.Rel (SimExpr site P) value x) :
    SimBlock site P (lowerReturn value) (do raise (.ret (← x.getD (pure .unit)))) where
  lowers := by
    refine .ret ?_
    intro action present
    cases part with
    | none => cases present
    | some part =>
      cases present
      exact part.lowers
  runs := by
    intro L u L' done ready embeds head tail state frame store cut linked
    have here := At.refl (P := P) ready cut linked
    cases part with
    | none =>
      obtain ⟨free, rfl⟩ := terminate_ok.mp done
      exact .leave ⟨⟨⟨head, linked⟩, here.keeps⟩, Site.returns_unit embeds ready.inside⟩
    | some part =>
      obtain ⟨id, M, lowered, done⟩ := bind_ok.mp done
      obtain ⟨free, rfl⟩ := terminate_ok.mp done
      refine here.expr part lowered (embeds.before_close free) ?_
      intro value state' frame' store' there _ known
      exact .leave (there.returns embeds known)

/-- A jump to a target of the enclosing loop. -/
theorem At.jumpOut (here : At site P o (head :: tail) M state frame store) {block : Nat}
    (embeds : Embeds (M.close (.jump block)) site.final) (made : block < site.final.nextBlock) :
    ∃ c, ReflTransGen site.next (site.here M frame store) c ∧ Left site o tail state c ∧
      c = site.start block c.frame c.store :=
  ⟨_, .single (Site.next_jump embeds here.ready.inside made),
    ⟨⟨head, here.linked⟩, here.keeps⟩, rfl⟩

theorem SimBlock.leaveLoop (kind : String) {target : Nat × Nat → Nat} {signal : Signal}
    (exits : ∀ (o : Origin σ) tail state c, Exits site o tail signal state c ↔
      ∀ targets ∈ o.lowerer.loopTargets.head?, target targets < site.final.nextBlock →
        Left site o tail state c ∧ c = site.start (target targets) c.frame c.store) :
    SimBlock site P (leaveLoop kind target) (raise signal) where
  lowers := .leaveLoop kind target
  runs := by
    intro L u L' done ready embeds head tail state frame store cut linked
    simp only [Lowering.leaveLoop, withState_apply] at done
    cases known : L.loopTargets with
    | nil => exact .leave ((exits _ _ _ _).mpr fun targets inside => by simp [known] at inside)
    | cons targets rest =>
      rw [known] at done
      obtain ⟨free, rfl⟩ := terminate_ok.mp done
      by_cases made : target targets < site.final.nextBlock
      · obtain ⟨c, steps, left, there⟩ := (At.refl (P := P) ready cut linked).jumpOut embeds made
        refine ⟨c, steps, (exits _ _ _ _).mpr fun targets' inside _ => ?_⟩
        obtain rfl : targets = targets' := by simpa [known] using inside
        exact ⟨left, there⟩
      · refine .leave ((exits _ _ _ _).mpr fun targets' inside made' => ?_)
        obtain rfl : targets = targets' := by simpa [known] using inside
        exact absurd made' made

/-- `break`. -/
theorem SimBlock.breakLoop : SimBlock site P lowerBreak (raise .brk) :=
  lowerBreak_eq ▸ .leaveLoop _ fun _ _ _ _ => Iff.rfl

/-- `continue`. -/
theorem SimBlock.continueLoop : SimBlock site P lowerContinue (raise .cont) :=
  lowerContinue_eq ▸ .leaveLoop _ fun _ _ _ _ => Iff.rfl

/-! ## Statements one after the other -/

theorem At.stmt (here : At site P o (head :: tail) M state frame store)
    {f : Value → Eval σ α} (part : SimStmt site P action x) {u : Unit}
    (lowered : action M = .ok u N) (embeds : Embeds N site.final)
    {arrives : α → State σ → Config σ → Prop}
    (rest : ∀ value head' state' frame' store', At site P o (head' :: tail) N state' frame' store' →
      Goes site o tail arrives N frame' store' (f value state')) :
    Goes site o tail arrives M frame store ((x >>= f) state) := by
  refine part.runs.andThen lowered here embeds ?_
  rintro value state' _ ⟨head', frame', store', rfl, there⟩
  exact rest value head' state' frame' store' (here.trans there)

variable {arrives : Value → State σ → Config σ → Prop}

/-- Statements, and steps after them. -/
theorem At.stmtLast (here : At site P o (head :: tail) M state frame store)
    (part : SimStmt site P action x) {u : Unit}
    (lowered : action M = .ok u N) (embeds : Embeds N site.final)
    (rest : ∀ value head' state' frame' store', At site P o (head' :: tail) N state' frame' store' →
      Goes site o tail arrives N frame' store' (.ok value state')) :
    Goes site o tail arrives M frame store (x state) := by
  refine part.runs.last lowered here embeds ?_
  rintro value state' _ ⟨head', frame', store', rfl, there⟩
  exact rest value head' state' frame' store' (here.trans there)

theorem At.tailLast (here : At site P o (head :: tail) M state frame store)
    {action : Lower (Option ValueId)} (part : SimTail site P action x)
    {result : Option ValueId} (lowered : action M = .ok result N) (embeds : Embeds N site.final)
    (rest : ∀ id value head' state' frame' store', result = some id →
      At site P o (head' :: tail) N state' frame' store' → frame'.values id = some value →
      Goes site o tail arrives N frame' store' (.ok value state')) :
    Goes site o tail arrives M frame store (x state) := by
  refine part.runs.last lowered here embeds ?_
  rintro value state' _ ⟨id, isId, head', frame', store', rfl, there, known⟩
  exact rest id value head' state' frame' store' isId (here.trans there) known

section Lists

variable (host : Host) (generated : ∀ name, Generated name → P name) {m : Meaning σ}
  (parts : ∀ s : Stmt, (∀ name ∈ s.declared, P name) → SimStmt site P (lowerStmt host s) (m.stmt s))

include generated parts

omit parts in
/-- What is lowered after a statement is in the finished function when the whole is. -/
theorem embeds_rest {statements : List Stmt} (declared : ∀ name ∈ declaredStmts statements, P name)
    {u : Unit} (free : Ready M ∨ M.terminated = true)
    (done : lowerStmts host statements M = .ok u N) (embeds : Embeds N site.final) :
    Embeds M site.final := by
  rcases free with ready | closed
  · exact (lowersStmts host generated statements declared _ _ _ done ready).toEmbeds.trans embeds
  · rw [lowerStmts_terminated host closed done] at embeds
    exact embeds

theorem simStmts (statements : List Stmt) (declared : ∀ name ∈ declaredStmts statements, P name)
    (result : Value) :
    SimStmt site P (lowerStmts host statements) (executeStatements m statements result) := by
  induction statements generalizing result with
  | nil =>
    refine ⟨lowersStmts host generated [] declared, ?_⟩
    intro L u L' done ready embeds head tail state frame store cut linked
    simp only [lowerStmts] at done
    obtain ⟨-, rfl⟩ := pure_ok.mp done
    exact .here ⟨head, frame, store, rfl, .refl ready cut linked⟩
  | cons statement rest ih =>
    refine ⟨lowersStmts host generated (statement :: rest) declared, ?_⟩
    simp only [declaredStmts, forall_mem_append] at declared
    have first := parts statement declared.1
    have others : ∀ name ∈ declaredStmts rest, P name := declared.2
    intro L u L' done ready embeds head tail state frame store cut linked
    simp only [lowerStmts] at done
    rcases unlessTerminated_ok.mp done with ⟨closed, -⟩ | ⟨-, done⟩
    · rw [ready.free] at closed
      cases closed
    obtain ⟨_, M, lowered, done⟩ := bind_ok.mp done
    have grown := first.lowers _ _ _ lowered ready
    have partM : Embeds M site.final := by
      refine embeds_rest host generated others ?_ done embeds
      cases closed : M.terminated with
      | true => exact .inr rfl
      | false => exact .inl (grown.ready ready closed)
    refine (At.refl ready cut linked).stmt first lowered partM ?_
    intro value head' state' frame' store' there
    refine there.stmtLast (ih others value) done embeds ?_
    intro value' head'' state'' frame'' store'' ended
    exact .here ⟨head'', frame'', store'', rfl, ended⟩

variable (tails : ∀ (s : Stmt) (type : Option TypeNode), (∀ name ∈ s.declared, P name) →
    SimTail site P (lowerTailStmt host s type) (m.stmt s))

include tails

theorem simTail_cons (statement : Stmt) (rest : List Stmt)
    (declared : ∀ name ∈ declaredStmts (statement :: rest), P name) (type : Option TypeNode)
    (result : Value) :
    SimTail site P (lowerTail host (statement :: rest) type)
      (executeStatements m (statement :: rest) result) := by
  induction rest generalizing statement result with
  | nil =>
    refine ⟨lowersTail host generated [statement] type declared, ?_⟩
    simp only [declaredStmts, append_nil] at declared
    intro L value L' done ready embeds head tail state frame store cut linked
    simp only [lowerTail] at done
    have last := (tails statement type declared).runs _ _ _
      ((tailUnlessTerminated_ok ready.free).mp done) ready embeds head tail state frame store cut
      linked
    exact last.bind (fun _ _ _ arrived => .here arrived) fun _ _ _ exit => exit
  | cons next rest ih =>
    refine ⟨lowersTail host generated (statement :: next :: rest) type declared, ?_⟩
    rw [declaredStmts] at declared
    have first := parts statement (forall_mem_append.mp declared).1
    have others : ∀ name ∈ declaredStmts (next :: rest), P name := (forall_mem_append.mp declared).2
    intro L value L' done ready embeds head tail state frame store cut linked
    simp only [lowerTail] at done
    obtain ⟨_, M, lowered, done⟩ := bind_ok.mp ((tailUnlessTerminated_ok ready.free).mp done)
    have grown := first.lowers _ _ _ lowered ready
    have partM : Embeds M site.final := by
      cases closed : M.terminated with
      | true =>
        obtain ⟨-, rfl⟩ := lowerTail_terminated host closed done
        exact embeds
      | false =>
        exact (lowersTail host generated (next :: rest) type others _ _ _ done
          (grown.ready ready closed)).1.toEmbeds.trans embeds
    refine (At.refl ready cut linked).stmt first lowered partM ?_
    intro value head' state' frame' store' there
    refine there.tailLast (ih next others value) done embeds ?_
    intro id value' head'' state'' frame'' store'' isId ended known
    exact .here ⟨id, isId, head'', frame'', store'', rfl, ended, known⟩

theorem simTail (statements : List Stmt) (declared : ∀ name ∈ declaredStmts statements, P name)
    (type : Option TypeNode) :
    SimTail site P (lowerTail host statements type) (executeStatements m statements .unit) := by
  cases statements with
  | nil =>
    have empty : lowerTail host [] type = present emitUnit := by simp only [lowerTail]
    rw [empty]
    exact SimExpr.unit.present.toTail
  | cons statement rest =>
    exact simTail_cons host generated parts tails statement rest declared type .unit

end Lists

end Koschei.Lowering
