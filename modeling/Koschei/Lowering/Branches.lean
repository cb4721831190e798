import Koschei.Lowering.Forms

/-!
# Forms that branch

Conditions, short-circuit operators, fallible forms, Map and struct literals and
matches. Each of them tests a value, goes to one of some blocks that were
reserved before, and joins. The blocks are entered in the order in which the run
goes, not in the order in which they were lowered; what holds when a block is
entered does not depend on it, because the parts of a form keep the scopes and
the registers made before them.
-/

namespace Koschei.Lowering

open Lib Ast Mir Filter Relation

variable {σ α : Type} {site : Site σ} {P : String → Prop} {o : Origin σ} {tail : Scoping}
  {head : List (String × String)} {L M N : Lowerer} {state : State σ} {frame : Frame}
  {store : Store σ}

/-! ## Tests and joins -/

/-- A name that is not in use is not reached by any scope. -/
theorem WellScoped.hides {name : String} (start : WellScoped L) (fresh : name ∉ L.used)
    (cut : (head :: tail).flatten = L.scopes.flatten) : name ∉ (head :: tail).flatten.map snd := by
  rw [cut]
  exact fun seen => fresh (start.used seen)

namespace At

variable (here : At site P o (head :: tail) M state frame store)

include here

/-- Test something, and go to one of two blocks. -/
theorem test {i : ValueId → Instruction} {b : Bool}
    (executes : ∀ fuel, executeInstruction site.machine (site.calls fuel) site.moduleKey frame
      (i (M.nextValue : Int)) store = .ok (frame.set (M.nextValue : Int) (.bool b)) store)
    {count yes no : Nat}
    (embeds : Embeds (((M.bump.push (i (M.nextValue : Int))).reserve count).close
      (.branch (M.nextValue : Int) yes no)) site.final)
    (free : ((M.bump.push (i (M.nextValue : Int))).reserve count).terminated = false)
    (yesMade : yes < site.final.nextBlock) (noMade : no < site.final.nextBlock) :
    ReflTransGen site.next (site.here M frame store)
        (site.start (if b then yes else no) (frame.set (M.nextValue : Int) (.bool b)) store) ∧
      At site P ⟨M, frame, store⟩ (head :: tail) (M.bump.push (i (M.nextValue : Int))) state
        (frame.set (M.nextValue : Int) (.bool b)) store := by
  obtain ⟨tested, there⟩ := here.emitPure (embeds.before_close free).before_reserve executes
  refine ⟨.head tested ?_, there⟩
  have known : (frame.set (M.nextValue : Int) (.bool b)).values (M.nextValue : Int) =
      some (.bool b) := by
    simp [Frame.set]
  rw [← Site.here_reserve there.ready.inside count]
  exact .single (Site.next_branch embeds (by simpa using Nat.lt_add_right _ there.ready.inside)
    yesMade noMade known rfl)

variable {id : ValueId} {value : Value}

theorem testError (known : frame.values id = some value) {count errorBlock otherBlock : Nat}
    (embeds : Embeds ((M.test id count).close
      (.branch (M.nextValue : Int) errorBlock otherBlock)) site.final)
    (free : (M.test id count).terminated = false) (errorMade : errorBlock < site.final.nextBlock)
    (otherMade : otherBlock < site.final.nextBlock) :
    ReflTransGen site.next (site.here M frame store)
        (site.start (if value.isError then errorBlock else otherBlock)
          (frame.set (M.nextValue : Int) (.bool value.isError)) store) ∧
      At site P ⟨M, frame, store⟩ (head :: tail)
        (M.bump.push (.isRuntimeError (M.nextValue : Int) id .bool)) state
        (frame.set (M.nextValue : Int) (.bool value.isError)) store := by
  refine here.test (i := fun target => .isRuntimeError target id .bool) (fun fuel => ?_) embeds
    free errorMade otherMade
  simp only [executeInstruction, Frame.assign, read_known known, Comp.pure_bind, pure_apply]

theorem testFallible (known : frame.values id = some value) {count successBlock failureBlock : Nat}
    (embeds : Embeds (((M.bump.push (.fallibleIsSuccess (M.nextValue : Int) id .bool)).reserve
      count).close (.branch (M.nextValue : Int) successBlock failureBlock)) site.final)
    (free : ((M.bump.push (.fallibleIsSuccess (M.nextValue : Int) id .bool)).reserve
      count).terminated = false) (successMade : successBlock < site.final.nextBlock)
    (failureMade : failureBlock < site.final.nextBlock) :
    ReflTransGen site.next (site.here M frame store)
        (site.start (if value.unwrapFallible.1 then successBlock else failureBlock)
          (frame.set (M.nextValue : Int) (.bool value.unwrapFallible.1)) store) ∧
      At site P ⟨M, frame, store⟩ (head :: tail)
        (M.bump.push (.fallibleIsSuccess (M.nextValue : Int) id .bool)) state
        (frame.set (M.nextValue : Int) (.bool value.unwrapFallible.1)) store := by
  refine here.test (i := fun target => .fallibleIsSuccess target id .bool) (fun fuel => ?_)
    embeds free successMade failureMade
  simp only [executeInstruction, Frame.assign, read_known known, Comp.pure_bind, pure_apply]

variable {type : TypeNode}

theorem payload (known : frame.values id = some value) (success : value.unwrapFallible.1 = true)
    (embeds : Embeds (M.bump.push (.falliblePayload (M.nextValue : Int) id type)) site.final) :
    site.next (site.here M frame store)
        (site.here (M.bump.push (.falliblePayload (M.nextValue : Int) id type))
          (frame.set (M.nextValue : Int) value.unwrapFallible.2) store) ∧
      At site P ⟨M, frame, store⟩ (head :: tail)
        (M.bump.push (.falliblePayload (M.nextValue : Int) id type)) state
        (frame.set (M.nextValue : Int) value.unwrapFallible.2) store := by
  refine here.emitPure (i := fun target => .falliblePayload target id type) embeds fun fuel => ?_
  have unwrapped : value.unwrapFallible = (true, value.unwrapFallible.2) := Prod.ext success rfl
  simp only [executeInstruction, Frame.assign, read_known known, Comp.pure_bind, falliblePayload]
  rw [unwrapped]
  rfl

/-- A return leaves the function. -/
theorem returns (embeds : Embeds (M.close (.ret (some id))) site.final)
    (known : frame.values id = some value) :
    Exits site o tail (.ret value) state (site.here M frame store) :=
  ⟨⟨⟨head, here.linked⟩, here.keeps⟩, Site.returns_close embeds here.ready.inside known⟩

variable {arrives : α → State σ → Config σ → Prop}
  {leaves : Signal → State σ → Config σ → Prop} {outcome : Outcome Signal (State σ) α}
  {block : Nat} {K : Lowerer}

variable (start : Ready o.lowerer) (cut : (head :: tail).flatten = o.lowerer.scopes.flatten)

include start cut

/-- Enter a block that was reserved: what holds does not depend on where it was lowered. -/
theorem enter (begins : Begins P o.lowerer K N block)
    (rest : At site P o (head :: tail) N state frame store →
      Leads site.next arrives leaves (site.here N frame store) outcome) :
    Leads site.next arrives leaves (site.start block frame store) outcome := by
  rw [← Site.here_goto begins.blank, ← begins.eq]
  refine rest ⟨begins.regular.orderly start, begins.regular.ready start, ?_, here.linked,
    here.keeps⟩
  rw [begins.regular.scopes, cut]

theorem jump (embeds : Embeds (M.close (.jump block)) site.final)
    (begins : Begins P o.lowerer K N block) (part : Embeds N site.final)
    (rest : At site P o (head :: tail) N state frame store →
      Leads site.next arrives leaves (site.here N frame store) outcome) :
    Leads site.next arrives leaves (site.here M frame store) outcome :=
  .after (.single (Site.next_jump embeds here.ready.inside (begins.made part)))
    (here.enter start cut begins rest)

variable {u : Unit} {M' : Lowerer}

/-- The same at the end of a branch that goes on. -/
theorem join (joined : unlessTerminated (jumpTo block) M = .ok u M') (embeds : Embeds M' site.final)
    (begins : Begins P o.lowerer K N block) (part : Embeds N site.final)
    (rest : At site P o (head :: tail) N state frame store →
      Leads site.next arrives leaves (site.here N frame store) outcome) :
    Leads site.next arrives leaves (site.here M frame store) outcome := by
  rcases unlessTerminated_ok.mp joined with ⟨closed, -⟩ | ⟨-, joined⟩
  · rw [here.ready.free] at closed
    cases closed
  · obtain ⟨-, rfl⟩ := terminate_ok.mp joined
    exact here.jump start cut embeds begins part rest

variable {name : String} {isMutable : Bool}

theorem bindHidden (embeds : Embeds (M.push (.bind name id isMutable type)) site.final)
    (known : frame.values id = some value) (fresh : name ∉ o.lowerer.used) (used : name ∈ M.used) :
    site.next (site.here M frame store)
        (site.here (M.push (.bind name id isMutable type)) (frame.bind name ⟨value, isMutable⟩)
          store) ∧
      At site P o (head :: tail) (M.push (.bind name id isMutable type)) state
        (frame.bind name ⟨value, isMutable⟩) store := by
  have pushed := (Regular.refl (P := P) here.ready).push (.bind name id isMutable type)
  refine ⟨Site.next_push embeds here.ready.inside (.of_forall fun fuel => ?_),
    here.grown.trans (pushed.orderly here.ready), pushed.ready here.ready, here.cut,
    here.linked.bind (start.lexical.hides fresh cut) (embeds.used used) _,
    here.keeps.bind (fun old => absurd old fresh) _⟩
  simp only [executeInstruction, read_known known, Comp.pure_bind, pure_apply]

/-- Overwrite such a binding. -/
theorem storeHidden {value old : Value} (embeds : Embeds (M.push (.store name id type)) site.final)
    (known : frame.values id = some value) (bound : frame.bindings name = some ⟨old, true⟩)
    (fresh : name ∉ o.lowerer.used) (used : name ∈ M.used) :
    site.next (site.here M frame store)
        (site.here (M.push (.store name id type)) (frame.bind name ⟨value, true⟩) store) ∧
      At site P o (head :: tail) (M.push (.store name id type)) state
        (frame.bind name ⟨value, true⟩) store := by
  have pushed := (Regular.refl (P := P) here.ready).push (.store name id type)
  refine ⟨Site.next_push embeds here.ready.inside (.of_forall fun fuel => ?_),
    here.grown.trans (pushed.orderly here.ready), pushed.ready here.ready, here.cut,
    here.linked.bind (start.lexical.hides fresh cut) (embeds.used used) _,
    here.keeps.bind (fun old => absurd old fresh) _⟩
  simp only [executeInstruction, storeName, bound, if_true, read_known known, Comp.pure_bind,
    pure_apply]

/-- Code that starts here keeps such a binding. -/
theorem kept {cell : Cell} {Γ : Scoping} {state' : State σ} {frame' : Frame}
    {store' : Store σ} (later : At site P ⟨M, frame, store⟩ Γ N state' frame' store')
    (bound : frame.bindings name = some cell)
    (fresh : name ∉ o.lowerer.used) (used : name ∈ M.used) : frame'.bindings name = some cell := by
  rw [later.keeps.hidden name used ?_, bound]
  rw [visible, ← here.cut]
  exact start.lexical.hides fresh cut

omit start cut in
theorem loadResult (cell : Cell) {leaves : Signal → State σ → Config σ → Prop}
    (embeds : Embeds (M.bump.push (.load (M.nextValue : Int) name type)) site.final)
    (bound : frame.bindings name = some cell) :
    Leads site.next
      (HasValue site P o (head :: tail) (M.nextValue : Int)
        (M.bump.push (.load (M.nextValue : Int) name type)))
      leaves (site.here M frame store) (.ok cell.value state) := by
  have executes (fuel : Nat) : executeInstruction site.machine (site.calls fuel) site.moduleKey
      frame (.load (M.nextValue : Int) name type) store =
        .ok (frame.set (M.nextValue : Int) cell.value) store := by
    simp only [executeInstruction, Frame.assign, Machine.loadName, bound, Comp.pure_bind,
      pure_apply]
  obtain ⟨stepped, there⟩ := here.emitPure (i := fun target => .load target name type) embeds
    executes
  exact ⟨_, .single stepped, _, _, rfl, here.trans there, by simp [Frame.set]⟩

theorem bindNew {number : Nat}
    (embeds : Embeds ((M.take name number).push (.bind name id isMutable type)) site.final)
    (known : frame.values id = some value) (fresh : name ∉ o.lowerer.used) (fits : P name) :
    site.next (site.here M frame store)
        (site.here ((M.take name number).push (.bind name id isMutable type))
          (frame.bind name ⟨value, isMutable⟩) store) ∧
      At site P o (head :: tail) ((M.take name number).push (.bind name id isMutable type)) state
        (frame.bind name ⟨value, isMutable⟩) store := by
  have taken := (Regular.refl (P := P) here.ready).take fits number
  have there : At site P o (head :: tail) (M.take name number) state frame store :=
    here.move (here.grown.trans (taken.orderly here.ready)) (taken.ready here.ready) rfl
  exact there.bindHidden start cut embeds known fresh mem_cons_self

theorem bindAndJoin (joined : bindAndJoin name (some id) type block M = .ok u M')
    (embeds : Embeds M' site.final) (known : frame.values id = some value)
    (fresh : name ∉ o.lowerer.used) (used : name ∈ M.used)
    (begins : Begins P o.lowerer K N block) (part : Embeds N site.final)
    (rest : At site P o (head :: tail) N state (frame.bind name ⟨value, false⟩) store →
      Leads site.next arrives leaves (site.here N (frame.bind name ⟨value, false⟩) store) outcome) :
    Leads site.next arrives leaves (site.here M frame store) outcome := by
  rcases unlessTerminated_ok.mp joined with ⟨closed, -⟩ | ⟨-, joined⟩
  · rw [here.ready.free] at closed
    cases closed
  · simp only [emit_then, jumpTo, terminate_ok] at joined
    obtain ⟨-, free, rfl⟩ := joined
    obtain ⟨stepped, bound⟩ := here.bindHidden start cut (embeds.before_close free) known fresh used
    exact .after (.single stepped) (bound.jump start cut embeds begins part rest)

end At

/-! ## Conditions -/

variable {condition value : Lower ValueId} {x y z : Eval σ Value} {host : Host}

theorem SimBlock.ifThen {thenBlock elseBranch : Lower Unit}
    (sameHost : site.machine.runtime.host = host)
    (first : SimExpr site P condition x) (second : SimBlock site P thenBlock y)
    (third : SimBlock site P elseBranch z) :
    SimBlock site P (lowerIf condition thenBlock elseBranch) (do
        let value ← x
        if value.isError then pure value
        else if host.truthy value then y
        else z) where
  lowers := (LowersPart.ifThen first.lowers second.lowers third.lowers).block
  runs := by
    intro L u L' done ready part head tail state frame store cut linked
    obtain ⟨layout⟩ := lowerIf_layout first.lowers second.lowers third.lowers done ready
    have partF'' := layout.toJoin.before part
    have partF := layout.elseGrown.toEmbeds.trans (layout.elseJoining.toEmbeds.trans partF'')
    have partT'' := layout.toElse.before partF
    have partT' := layout.thenJoining.toEmbeds.trans partT''
    have partT := layout.thenGrown.toEmbeds.trans partT'
    have partD := layout.toThen.before partT
    have partE := layout.toDecision.before partD
    have tested := layout.toError.before partE
    refine (At.refl ready cut linked).expr first layout.lowered
      (tested.before_reserve.before_push layout.grown.free).before_bump ?_
    intro value state₁ frame₁ store₁ there _ known
    obtain ⟨steps, atTest⟩ := there.testError known (layout.toError.closed partE)
      layout.toError.free (layout.toError.made partE) (layout.toDecision.made partD)
    refine .after steps ?_
    have moved := there.trans atTest
    have known₁ := atTest.value known layout.bound
    cases failed : value.isError with
    | true =>
      rw [failed] at moved
      refine moved.enter ready cut layout.toError.begins fun entered => ?_
      refine entered.jump ready cut (layout.toDecision.closed partD) layout.toJoin part
        fun arrived => ?_
      exact .here ⟨_, _, rfl, arrived⟩
    | false =>
      rw [failed] at moved known₁
      refine moved.enter ready cut layout.toDecision.begins fun entered => ?_
      refine .after (.single (Site.next_branch (layout.toThen.closed partT)
        entered.ready.inside (layout.toThen.made partT) (layout.toElse.made partF) known₁
        failed)) ?_
      rw [sameHost]
      cases taken : host.truthy value with
      | true =>
        refine entered.enter ready cut layout.toThen.begins fun inThen => ?_
        refine inThen.block second layout.thenLowered partT' ?_
        intro result state₂ frame₂ store₂ ended
        refine ended.join ready cut layout.thenJoined partT'' layout.toJoin part fun arrived => ?_
        exact .here ⟨_, _, rfl, arrived⟩
      | false =>
        refine entered.enter ready cut layout.toElse fun inElse => ?_
        refine inElse.block third layout.elseLowered (layout.elseJoining.toEmbeds.trans partF'') ?_
        intro result state₂ frame₂ store₂ ended
        refine ended.join ready cut layout.elseJoined partF'' layout.toJoin part fun arrived => ?_
        exact .here ⟨_, _, rfl, arrived⟩

section

variable (generated : ∀ name, Generated name → P name)

include generated

theorem SimExpr.valueIf
    {thenBlock elseBranch : Lower (Option ValueId)} (sameHost : site.machine.runtime.host = host)
    (first : SimExpr site P condition x) (second : SimBranch site P thenBlock y)
    (third : SimBranch site P elseBranch z) (type : TypeNode) :
    SimExpr site P (lowerValueIf condition thenBlock elseBranch type) (do
        let value ← x
        if value.isError then pure value
        else if host.truthy value then y
        else z) where
  lowers := .valueIf generated first.lowers second.lowers third.lowers type
  runs := by
    intro L id L' done ready part head tail state frame store cut linked
    obtain ⟨resultName, J, rfl, rfl, ⟨layout⟩⟩ :=
      lowerValueIf_layout generated first.lowers second.lowers third.lowers done ready
    have partJ := (part.before_push layout.toJoin.regular.free).before_bump
    have partF'' := layout.toJoin.before partJ
    have partF' := layout.elseJoining.toEmbeds.trans partF''
    have partF := layout.elseGrown.toEmbeds.trans partF'
    have partT'' := layout.toElse.before partF
    have partT' := layout.thenJoining.toEmbeds.trans partT''
    have partT := layout.thenGrown.toEmbeds.trans partT'
    have partD := layout.toThen.before partT
    have partE := (layout.toDecision.before partD).before_push layout.toError.regular.free
    have closed := (layout.toError.closed partE).before_take_close
    have unused : resultName ∉ L.used := fun old => layout.fresh (layout.grown.used old)
    have usedE : resultName ∈ layout.E.used := by
      rw [layout.toError.used]
      exact mem_cons_self
    have usedD : resultName ∈ layout.D.used := layout.toDecision.used ▸ usedE
    have usedT : resultName ∈ layout.T'.used := layout.thenGrown.used (layout.toThen.used ▸ usedD)
    have usedF : resultName ∈ layout.F'.used :=
      layout.elseGrown.used (layout.toElse.used ▸ layout.thenJoining.used usedT)
    refine (At.refl ready cut linked).expr first layout.lowered
      ((closed.before_close layout.toError.free).before_reserve.before_push
        layout.grown.free).before_bump ?_
    intro value state₁ frame₁ store₁ there _ known
    obtain ⟨steps, atTest⟩ := there.testError known closed layout.toError.free
      (layout.toError.made partE) (layout.toDecision.made partD)
    refine .after steps ?_
    have moved := there.trans atTest
    have known₁ := atTest.value known layout.bound
    cases failed : value.isError with
    | true =>
      rw [failed] at moved known₁
      refine moved.enter ready cut layout.toError.begins fun entered => ?_
      obtain ⟨stepped, bound⟩ := entered.bindHidden ready cut (layout.toDecision.before partD)
        known₁ unused usedE
      refine .after (.single stepped) ?_
      refine bound.jump ready cut (layout.toDecision.closed partD) layout.toJoin partJ
        fun arrived => ?_
      exact arrived.loadResult ⟨value, false⟩ part (by simp [Frame.bind])
    | false =>
      rw [failed] at moved known₁
      refine moved.enter ready cut layout.toDecision.begins fun entered => ?_
      refine .after (.single (Site.next_branch (layout.toThen.closed partT)
        entered.ready.inside (layout.toThen.made partT) (layout.toElse.made partF) known₁
        failed)) ?_
      rw [sameHost]
      cases taken : host.truthy value with
      | true =>
        refine entered.enter ready cut layout.toThen.begins fun inThen => ?_
        refine inThen.branch second layout.thenLowered partT' ?_
        intro id result state₂ frame₂ store₂ isId ended _ known₂
        refine ended.bindAndJoin ready cut (isId ▸ layout.thenJoined) partT'' known₂ unused usedT
          layout.toJoin partJ fun arrived => ?_
        exact arrived.loadResult ⟨result, false⟩ part (by simp [Frame.bind])
      | false =>
        refine entered.enter ready cut layout.toElse fun inElse => ?_
        refine inElse.branch third layout.elseLowered partF' ?_
        intro id result state₂ frame₂ store₂ isId ended _ known₂
        refine ended.bindAndJoin ready cut (isId ▸ layout.elseJoined) partF'' known₂ unused usedF
          layout.toJoin partJ fun arrived => ?_
        exact arrived.loadResult ⟨result, false⟩ part (by simp [Frame.bind])

/-! ## Short-circuit operators -/

theorem SimExpr.shortCircuit {left right : Lower ValueId}
    (sameHost : site.machine.runtime.host = host) (first : SimExpr site P left x)
    (second : SimExpr site P right y) (conjunction : Bool) (type : TypeNode) :
    SimExpr site P (lowerShortCircuit conjunction left right type) (do
        let leftValue ← x
        if leftValue.isError then pure leftValue
        else if host.truthy leftValue = conjunction then y
        else pure leftValue) where
  lowers := .shortCircuit generated first.lowers second.lowers conjunction type
  runs := by
    intro L id L' done ready part head tail state frame store cut linked
    obtain ⟨resultName, J, rfl, rfl, ⟨layout⟩⟩ :=
      lowerShortCircuit_layout generated first.lowers second.lowers done ready
    have partJ := (part.before_push layout.toJoin.regular.free).before_bump
    have partS := layout.toJoin.before partJ
    have stored := layout.toSkip.before partS
    have partR' := stored.before_push layout.rightGrown.free
    have partR := layout.rightGrown.toEmbeds.trans partR'
    have partD := layout.toRight.before partR
    have partB := (layout.toDecision.before partD).before_reserve.before_push layout.boundGrown.free
    have bound := partB.before_bump
    rw [layout.bound] at bound
    have unused : resultName ∉ L.used := fun old => layout.fresh (layout.leftGrown.used old)
    have usedB : resultName ∈ layout.B.used := by
      rw [layout.bound]
      exact mem_cons_self
    have usedR : resultName ∈ layout.R.used := by
      rw [layout.toRight.used, layout.toDecision.used]
      simpa [Lowerer.test] using usedB
    refine (At.refl ready cut linked).expr first layout.leftLowered
      (bound.before_push layout.leftGrown.free).before_take ?_
    intro value state₁ frame₁ store₁ there _ known
    obtain ⟨stepped, atBound⟩ := there.bindNew ready cut bound known unused layout.fits
    rw [← layout.bound] at stepped atBound
    refine .after (.single stepped) ?_
    have known₁ : (frame₁.bind resultName ⟨value, true⟩).values layout.leftId = some value := known
    obtain ⟨steps, atTest⟩ := atBound.testError known₁ (layout.toDecision.closed partD)
      layout.toDecision.free (layout.toJoin.made partJ) (layout.toDecision.made partD)
    refine .after steps ?_
    have moved := atBound.trans atTest
    have known₂ := atTest.value known₁ (by
      rw [layout.bound]
      exact layout.leftBound)
    have result : ((frame₁.bind resultName ⟨value, true⟩).set (layout.B.nextValue : Int)
        (.bool value.isError)).bindings resultName = some ⟨value, true⟩ := by
      simp [Frame.set, Frame.bind]
    cases failed : value.isError with
    | true =>
      rw [failed] at moved result
      refine moved.enter ready cut layout.toJoin.begins fun arrived => ?_
      exact arrived.loadResult ⟨value, true⟩ part result
    | false =>
      rw [failed] at moved known₂ result
      refine moved.enter ready cut layout.toDecision.begins fun entered => ?_
      have rightMade := layout.toRight.made partR
      have skipMade := layout.toSkip.made partS
      refine .after (.single (Site.next_branch (layout.toRight.closed partR)
        entered.ready.inside (by split <;> assumption) (by split <;> assumption) known₂
        failed)) ?_
      rw [sameHost]
      have target : (if host.truthy value then
          if conjunction then layout.B.nextBlock + 1 else layout.B.nextBlock + 2
          else if conjunction then layout.B.nextBlock + 2 else layout.B.nextBlock + 1) =
          if host.truthy value = conjunction then layout.B.nextBlock + 1
          else layout.B.nextBlock + 2 := by
        cases host.truthy value <;> cases conjunction <;> rfl
      rw [target]
      by_cases goesOn : host.truthy value = conjunction
      · simp only [goesOn, if_true]
        refine entered.enter ready cut layout.toRight.begins fun inRight => ?_
        refine inRight.exprLast second layout.rightLowered partR' ?_
        intro value' state₂ frame₂ store₂ ended later known₃
        have kept := inRight.kept ready cut later result unused usedR
        obtain ⟨stepped, atStore⟩ := ended.storeHidden ready cut stored known₃ kept unused
          (layout.rightGrown.used usedR)
        refine .after (.single stepped) ?_
        refine atStore.jump ready cut (layout.toSkip.closed partS) layout.toJoin.begins partJ
          fun arrived => ?_
        exact arrived.loadResult ⟨value', true⟩ part (by simp [Frame.bind])
      · simp only [goesOn, if_false]
        refine entered.enter ready cut layout.toSkip.begins fun skipped => ?_
        refine skipped.jump ready cut (layout.toJoin.closed partJ) layout.toJoin.begins partJ
          fun arrived => ?_
        exact arrived.loadResult ⟨value, true⟩ part result

/-! ## Fallible forms -/

omit generated in
/-- `or return`, with the failure itself or the value written for it. -/
theorem SimExpr.orReturn {error : Option (Lower ValueId)}
    {failure : Option (Eval σ Value)} (first : SimExpr site P value x)
    (second : Option.Rel (SimExpr site P) error failure) (type : TypeNode) :
    SimExpr site P (lowerOrReturn value error type) (do
        let result ← x
        if result.unwrapFallible.1 then pure result.unwrapFallible.2
        else do raise (.ret (← failure.getD (pure result)))) := by
  have lowersError : ∀ action ∈ error, LowersExpr P action := by
    intro action present
    cases second with
    | none => cases present
    | some part =>
      cases present
      exact part.lowers
  refine ⟨.orReturn first.lowers lowersError type, ?_⟩
  intro L id L' done ready part head tail state frame store cut linked
  obtain ⟨layout⟩ := lowerOrReturn_layout first.lowers lowersError done ready
  have unwrapped := layout.toJoin.before part
  have partS := (unwrapped.before_push layout.toSuccess.regular.free).before_bump
  have partE' := layout.toSuccess.before partS
  have partE := layout.failureGrown.toEmbeds.trans partE'
  have closed := layout.toFailure.closed partE
  have free := layout.toFailure.free
  rw [layout.tested] at closed free
  refine (At.refl ready cut linked).expr first layout.lowered
    ((closed.before_close free).before_reserve.before_push layout.grown.free).before_bump ?_
  intro value state₁ frame₁ store₁ there _ known
  obtain ⟨steps, atTest⟩ := there.testFallible known closed free (layout.toSuccess.made partS)
    (layout.toFailure.made partE)
  refine .after steps ?_
  have moved := there.trans atTest
  have known₁ := atTest.value known layout.bound
  cases success : value.unwrapFallible.1 with
  | true =>
    rw [success] at moved known₁
    refine moved.enter ready cut layout.toSuccess.begins fun entered => ?_
    obtain ⟨stepped, atPayload⟩ := entered.payload known₁ success unwrapped
    refine .after (.single stepped) ?_
    refine (entered.trans atPayload).jump ready cut (layout.toJoin.closed part)
      layout.toJoin.begins part fun arrived => ?_
    have known₂ : ((frame₁.set (layout.A.nextValue : Int) (.bool true)).set
        (layout.S.nextValue : Int) value.unwrapFallible.2).values (layout.S.nextValue : Int) =
        some value.unwrapFallible.2 := by
      simp [Frame.set]
    exact .here ⟨_, _, rfl, arrived, (congrArg _ layout.isId).trans known₂⟩
  | false =>
    rw [success] at moved known₁
    refine moved.enter ready cut layout.toFailure.begins fun entered => ?_
    have failureLowered := layout.failureLowered
    cases second with
    | none =>
      obtain ⟨same, same'⟩ := pure_ok.mp failureLowered
      have exits := layout.toSuccess.closed partS
      rw [same, same'] at exits
      exact .leave (entered.returns exits known₁)
    | some errorPart =>
      refine entered.expr errorPart failureLowered partE' ?_
      intro result state₂ frame₂ store₂ ended _ known₂
      exact .leave (ended.returns (layout.toSuccess.closed partS) known₂)

/-- `or` with a value or a block. -/
theorem SimExpr.orElse (purpose : String) {other : Lower (Option ValueId)}
    (first : SimExpr site P value x) (second : SimBranch site P other y) (type : TypeNode) :
    SimExpr site P (lowerOrElse purpose value other type) (do
        let result ← x
        if result.unwrapFallible.1 then pure result.unwrapFallible.2 else y) where
  lowers := .orElse generated purpose first.lowers second.lowers type
  runs := by
    intro L id L' done ready part head tail state frame store cut linked
    obtain ⟨resultName, J, rfl, rfl, ⟨layout⟩⟩ :=
      lowerOrElse_layout generated first.lowers second.lowers done ready
    have partJ := (part.before_push layout.toJoin.regular.free).before_bump
    have partE'' := layout.toJoin.before partJ
    have partE' := layout.joining.toEmbeds.trans partE''
    have partE := layout.otherGrown.toEmbeds.trans partE'
    have bound := layout.toFailure.before partE
    have boundClosed := layout.toFailure.closed partE
    rw [layout.isBound] at bound boundClosed
    have free := layout.toSuccess.regular.free
    have unwrapped := bound.before_push (by simpa using free)
    have partS := (unwrapped.before_push free).before_bump
    have closed := (layout.toSuccess.before partS).before_take
    have freeT := layout.free
    rw [layout.tested] at closed freeT
    have unused : resultName ∉ L.used := fun old => layout.fresh (layout.grown.used old)
    have usedS : resultName ∈ layout.S.used := by
      rw [layout.toSuccess.used]
      exact mem_cons_self
    have usedE : resultName ∈ layout.E'.used := by
      refine layout.otherGrown.used ?_
      rw [layout.toFailure.used, layout.isBound]
      exact usedS
    refine (At.refl ready cut linked).expr first layout.lowered
      ((closed.before_close freeT).before_reserve.before_push layout.grown.free).before_bump ?_
    intro value state₁ frame₁ store₁ there _ known
    obtain ⟨steps, atTest⟩ := there.testFallible known closed freeT
      (layout.toSuccess.made partS) (layout.toFailure.made partE)
    refine .after steps ?_
    have moved := there.trans atTest
    have known₁ := atTest.value known layout.bound
    cases success : value.unwrapFallible.1 with
    | true =>
      rw [success] at moved known₁
      refine moved.enter ready cut layout.toSuccess fun entered => ?_
      obtain ⟨stepped, atPayload⟩ := entered.payload known₁ success unwrapped
      refine .after (.single stepped) ?_
      have known₂ : ((frame₁.set (layout.A.nextValue : Int) (.bool true)).set
          (layout.S.nextValue : Int) value.unwrapFallible.2).values (layout.S.nextValue : Int) =
          some value.unwrapFallible.2 := by
        simp [Frame.set]
      obtain ⟨stepped', atBound⟩ := (entered.trans atPayload).bindHidden ready cut bound known₂
        unused usedS
      refine .after (.single stepped') ?_
      refine atBound.jump ready cut boundClosed layout.toJoin partJ fun arrived => ?_
      exact arrived.loadResult ⟨value.unwrapFallible.2, false⟩ part (by simp [Frame.bind])
    | false =>
      rw [success] at moved
      refine moved.enter ready cut layout.toFailure.begins fun entered => ?_
      refine entered.branch second layout.otherLowered partE' ?_
      intro id result state₂ frame₂ store₂ isId ended _ known₂
      refine ended.bindAndJoin ready cut (isId ▸ layout.joined) partE'' known₂ unused usedE
        layout.toJoin
        partJ fun arrived => ?_
      exact arrived.loadResult ⟨result, false⟩ part (by simp [Frame.bind])

end

end Koschei.Lowering
