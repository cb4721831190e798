import Koschei.Lowering.Matches

/-!
# Loops

A loop goes from its condition to its body and back. A turn of the body may end
with a value, or leave for the exit or the condition of the loop; the scopes of
the body are left on every way. A loop whose value is consumed keeps the value of
its last turn in a binding of its own.
-/

namespace Koschei.Lowering

open Lib Ast Mir Filter Relation

variable {σ : Type} {site : Site σ} {P : String → Prop} {o : Origin σ} {tail : Scoping}
  {head : List (String × String)} {L M N C : Lowerer} {state : State σ} {frame : Frame}
  {store : Store σ} {result : Option (String × TypeNode)} {value : Value}
  {exitBlock conditionBlock : Nat}

/-- The result binding of a loop, if it has one, holds a value. -/
def Holds (result : Option (String × TypeNode)) (frame : Frame) (value : Value) : Prop :=
  ∀ entry ∈ result, frame.bindings entry.1 = some ⟨value, true⟩

theorem Begins.from {K : Lowerer} {block : Nat} (begins : Begins P M K N block)
    (grown : Regular P L M) : Begins P L K N block :=
  ⟨begins.eq, begins.blank, grown.trans begins.regular⟩

/-- What the turns of a loop have in common: where the form started, the binding of its
result, and its condition and exit. -/
structure Loop (site : Site σ) (P : String → Prop) (o : Origin σ)
    (head : List (String × String)) (tail : Scoping) (result : Option (String × TypeNode))
    (exitBlock conditionBlock : Nat) (C M : Lowerer) : Prop where
  start : Ready o.lowerer
  cut : (head :: tail).flatten = o.lowerer.scopes.flatten
  fresh : ∀ entry ∈ result, entry.1 ∉ o.lowerer.used
  used : ∀ entry ∈ result, entry.1 ∈ C.used
  toCondition : ∃ K, Begins P o.lowerer K C conditionBlock
  toExit : ∃ K, Begins P o.lowerer K M exitBlock
  condition : Embeds C site.final
  exit : Embeds M site.final

/-- The loop has ended: the executor stands after it, with the value of the loop. -/
def Ended (site : Site σ) (P : String → Prop) (o : Origin σ) (Γ : Scoping)
    (result : Option (String × TypeNode)) (M : Lowerer) (value : Value) (state : State σ)
    (c : Config σ) : Prop :=
  ∃ frame store, c = site.here M frame store ∧ At site P o Γ M state frame store ∧
    Holds result frame value

namespace Loop

theorem made (loop : Loop site P o head tail result exitBlock conditionBlock C M) :
    exitBlock < site.final.nextBlock ∧ conditionBlock < site.final.nextBlock := by
  obtain ⟨_, toExit⟩ := loop.toExit
  obtain ⟨_, toCondition⟩ := loop.toCondition
  exact ⟨toExit.made loop.exit, toCondition.made loop.condition⟩

end Loop

namespace At

variable {arrives : Value → State σ → Config σ → Prop} {outcome : Outcome Signal (State σ) Value}
  {old : Value} {id : ValueId} {u : Unit}

theorem keep (here : At site P o (head :: tail) M state frame store)
    (fresh : ∀ entry ∈ result, entry.1 ∉ o.lowerer.used)
    (used : ∀ entry ∈ result, entry.1 ∈ M.used) (start : Ready o.lowerer)
    (cut : (head :: tail).flatten = o.lowerer.scopes.flatten)
    (holds : Holds result frame old) (known : frame.values id = some value)
    (done : keepResult result id M = .ok u N) (embeds : Embeds N site.final)
    (rest : ∀ frame', At site P o (head :: tail) N state frame' store →
      Holds result frame' value → frame'.values = frame.values →
      Goes site o tail arrives N frame' store outcome) :
    Goes site o tail arrives M frame store outcome := by
  cases result with
  | none =>
    obtain ⟨-, rfl⟩ := pure_ok.mp done
    exact rest frame here (fun entry inside => by cases inside) rfl
  | some entry =>
    obtain ⟨free, rfl⟩ := emit_ok.mp done
    obtain ⟨stepped, stored⟩ := here.storeHidden start cut embeds known (holds entry rfl)
      (fresh entry rfl) (used entry rfl)
    refine .after (.single stepped) (rest _ stored ?_ rfl)
    rintro _ ⟨rfl⟩
    simp [Frame.bind]

/-- The end of a turn: its value is kept, an Error leaves the loop, anything else goes
round. -/
theorem endTurn (here : At site P o (head :: tail) N state frame store)
    (loop : Loop site P o head tail result exitBlock conditionBlock C M)
    (used : ∀ entry ∈ result, entry.1 ∈ N.used) (holds : Holds result frame old)
    (known : frame.values id = some value) {N' : Lowerer}
    (done : lowerTurn result (some id) exitBlock conditionBlock N = .ok u N')
    (embeds : Embeds N' site.final)
    (failed : value.isError = true → ∀ frame', At site P o (head :: tail) M state frame' store →
      Holds result frame' value →
      Goes site o tail arrives M frame' store outcome) (again : value.isError = false → ∀ frame',
      At site P o (head :: tail) C state frame' store → Holds result frame' value →
      (∀ other < (N.nextValue : Int), frame'.values other = frame.values other) →
      Goes site o tail arrives C frame' store outcome) :
    Goes site o tail arrives N frame store outcome := by
  rcases unlessTerminated_ok.mp done with ⟨closed, -⟩ | ⟨-, done⟩
  · rw [here.ready.free] at closed
    cases closed
  obtain ⟨_, K, kept, done⟩ := bind_ok.mp done
  have keeping := LowersPart.keepResult (P := P) result id _ _ _ kept here.ready
  obtain ⟨layout⟩ := loopBack_layout (P := P) done (keeping.ready here.ready)
  have partC : Embeds layout.C site.final :=
    (layout.last ▸ embeds).before_close layout.toAgain.regular.free
  have partE := layout.toAgain.before partC
  have closed := layout.toError.closed partE
  have partK := ((closed.before_close layout.toError.free).before_reserve.before_push
    (keeping.ready here.ready).free).before_bump
  refine here.keep loop.fresh used loop.start loop.cut holds known kept partK ?_
  intro frame' stored holds' values
  have known' : frame'.values id = some value := by rw [values, known]
  obtain ⟨steps, atTest⟩ := stored.testError known' closed layout.toError.free
    (layout.toError.made partE) (layout.toAgain.made partC)
  refine .after steps ?_
  obtain ⟨_, toExit⟩ := loop.toExit
  obtain ⟨_, toCondition⟩ := loop.toCondition
  cases isError : value.isError with
  | true =>
    rw [isError] at atTest
    refine atTest.enter stored.ready stored.cut layout.toError.begins fun entered => ?_
    refine (stored.trans entered).jump loop.start loop.cut (layout.toAgain.closed partC) toExit
      loop.exit fun arrived => ?_
    exact failed isError _ arrived holds'
  | false =>
    rw [isError] at atTest
    refine atTest.enter stored.ready stored.cut layout.toAgain.begins fun entered => ?_
    refine (stored.trans entered).jump loop.start loop.cut (layout.last ▸ embeds) toCondition
      loop.condition fun arrived => ?_
    refine again isError _ arrived holds' fun other low => ?_
    rw [entered.keeps.values other (low.trans_le (Int.ofNat_le.mpr keeping.values)), values]

end At

/-! ## Turns -/

/-- The lowerer inside the body of a loop: in a scope of its own, with the targets of the
loop. -/
def Lowerer.inBody (L : Lowerer) (exitBlock conditionBlock : Nat) : Lowerer := { L with
  scopes := [] :: L.scopes
  loopTargets := (exitBlock, conditionBlock) :: L.loopTargets }

/-- The lowerer after the body of a loop. -/
def Lowerer.outBody (L : Lowerer) : Lowerer := { L with
  scopes := L.scopes.tail
  loopTargets := L.loopTargets.tail }

variable {frame' : Frame} {store' : Store σ}

theorem Keeps.outBody
    (keeps : Keeps (L.inBody exitBlock conditionBlock) frame store frame' store') :
    Keeps L frame store frame' store' :=
  keeps.congr le_rfl (Subset.refl _) (by simp [visible, Lowerer.inBody])

/-- Inside the body of a loop. -/
theorem At.inBody (here : At site P o (head :: tail) M state frame store)
    (exitBlock conditionBlock : Nat) :
    At site P ⟨M.inBody exitBlock conditionBlock, frame, store⟩ ([] :: head :: tail)
      (M.inBody exitBlock conditionBlock) { state with scopes := [] :: state.scopes } frame
      store := by
  have ready : Ready (M.inBody exitBlock conditionBlock) :=
    (here.ready.enterLoop ((exitBlock, conditionBlock) :: M.loopTargets)).enter
  exact .refl ready (by simpa [Lowerer.inBody] using here.cut) here.linked.enter

/-- How a turn ends, told by the way its body ends inside the scope. -/
theorem turn_inScope (y : Eval σ Value) (state : State σ) : Ast.turn (Ast.inScope y) state =
      match y { state with scopes := [] :: state.scopes } with
      | .ok value state' => .ok (.done value) { state' with scopes := state'.scopes.tail }
      | .raise .brk state' => .ok .broken { state' with scopes := state'.scopes.tail }
      | .raise .cont state' => .ok .continued { state' with scopes := state'.scopes.tail }
      | .raise signal state' => .raise signal { state' with scopes := state'.scopes.tail }
      | .timeout => .timeout := by
  simp only [Ast.turn, Comp.handle, bind_apply, Ast.inScope, Comp.finallyDo]
  cases y { state with scopes := [] :: state.scopes } with
  | ok value state' => rfl
  | timeout => rfl
  | raise signal state' => cases signal <;> rfl

theorem At.turn {B N : Lowerer} (here : At site P o (head :: tail) B state frame store)
    (loop : Loop site P o head tail result exitBlock conditionBlock C M)
    (bodyId : Option ValueId) (grown : Within P o.lowerer N.outBody) {y : Eval σ Value}
    (ran : Leads site.next
      (fun value state' c => ∃ id, bodyId = some id ∧ N.terminated = false ∧
        c = site.here N c.frame c.store ∧ c.frame.values id = some value ∧
        Left site ⟨B.inBody exitBlock conditionBlock, frame, store⟩ (head :: tail) state' c)
      (Exits site ⟨B.inBody exitBlock conditionBlock, frame, store⟩ (head :: tail))
      (site.here B frame store) (y { state with scopes := [] :: state.scopes }))
    {f : Turn → Eval σ Value} {arrives : Value → State σ → Config σ → Prop}
    (done : ∀ id value state' frame' store', bodyId = some id →
      At site P o (head :: tail) N.outBody state' frame' store' →
      Keeps B frame store frame' store' → frame'.values id = some value →
      Goes site o tail arrives N.outBody frame' store' (f (.done value) state'))
    (continued : ∀ state' frame' store', At site P o (head :: tail) C state' frame' store' →
      Keeps B frame store frame' store' →
      Goes site o tail arrives C frame' store' (f .continued state'))
    (broken : ∀ state' frame' store', At site P o (head :: tail) M state' frame' store' →
      Keeps B frame store frame' store' →
      Goes site o tail arrives M frame' store' (f .broken state')) :
    Goes site o tail arrives B frame store ((Ast.turn (Ast.inScope y) >>= f) state) := by
  obtain ⟨exitMade, conditionMade⟩ := loop.made
  obtain ⟨_, toExit⟩ := loop.toExit
  obtain ⟨_, toCondition⟩ := loop.toCondition
  -- Where a signal of the loop itself takes the executor.
  have goes {state' : State σ} {c : Config σ} {block : Nat} {K J : Lowerer}
      (begins : Begins P o.lowerer K J block)
      (left : Left site ⟨B.inBody exitBlock conditionBlock, frame, store⟩ (head :: tail) state' c)
      (there : c = site.start block c.frame c.store) :
      c = site.here J c.frame c.store ∧
        At site P o (head :: tail) J { state' with scopes := state'.scopes.tail } c.frame c.store ∧
        Keeps B frame store c.frame c.store := by
    obtain ⟨⟨inner, linked⟩, keeps⟩ := left
    refine ⟨?_, ⟨begins.regular.orderly loop.start, begins.regular.ready loop.start, ?_,
      linked.leave, here.keeps.trans here.grown keeps.outBody⟩, keeps.outBody⟩
    · rw [begins.eq, Site.here_goto begins.blank]
      exact there
    · rw [begins.regular.scopes, loop.cut]
  rw [bind_apply, turn_inScope]
  cases outcome : y { state with scopes := [] :: state.scopes } with
  | timeout => trivial
  | ok value state' =>
    rw [outcome] at ran
    obtain ⟨c, steps, id, isId, free, there, known, ⟨inner, linked⟩, keeps⟩ := ran
    rw [there] at steps
    refine .after steps (done id value _ c.frame c.store isId ?_ keeps.outBody known)
    refine ⟨grown.orderly loop.start, grown.ready loop.start free, ?_, linked.leave,
      here.keeps.trans here.grown keeps.outBody⟩
    rw [grown.scopes, loop.cut]
  | raise signal state' =>
    rw [outcome] at ran
    obtain ⟨c, steps, exit⟩ := ran
    cases signal with
    | fault fault => exact ⟨c, steps, trivial⟩
    | ret value =>
      obtain ⟨⟨⟨inner, linked⟩, keeps⟩, returns⟩ := exit
      exact ⟨c, steps, ⟨⟨head, linked.leave⟩, here.keeps.trans here.grown keeps.outBody⟩, returns⟩
    | brk =>
      obtain ⟨left, there⟩ := exit (exitBlock, conditionBlock) rfl exitMade
      obtain ⟨same, at', keeps⟩ := goes toExit left there
      rw [same] at steps
      exact .after steps (broken _ _ _ at' keeps)
    | cont =>
      obtain ⟨left, there⟩ := exit (exitBlock, conditionBlock) rfl conditionMade
      obtain ⟨same, at', keeps⟩ := goes toCondition left there
      rw [same] at steps
      exact .after steps (continued _ _ _ at' keeps)

variable {body : Lower (Option ValueId)}

theorem WhileLayout.loop {condition : Lower ValueId}
    (layout : WhileLayout P result condition body L M) (grown : Regular P o.lowerer L)
    (start : Ready o.lowerer) (cut : (head :: tail).flatten = o.lowerer.scopes.flatten)
    (fresh : ∀ entry ∈ result, entry.1 ∉ o.lowerer.used)
    (used : ∀ entry ∈ result, entry.1 ∈ L.used) (part : Embeds M site.final) :
    Loop site P o head tail result (L.nextBlock + 4) L.nextBlock layout.C M where
  start := start
  cut := cut
  fresh := fresh
  used entry inside := layout.toCondition.regular.used (used entry inside)
  toCondition := ⟨_, layout.toCondition.begins.from grown⟩
  toExit := ⟨_, layout.toExit.from grown⟩
  condition := by
    have partB'' := layout.toExit.before part
    have partB := (layout.bodyGrown.trans layout.turnGrown).toEmbeds.trans partB''
    have partE' := layout.toDecision.before (layout.toBody.before partB)
    have partE := layout.errorGrown.toEmbeds.trans partE'
    have tested := layout.toError.before partE
    exact layout.grown.toEmbeds.trans
      (tested.before_reserve.before_push layout.grown.free).before_bump
  exit := part

/-- The turns of a while loop from its condition on. -/
def SimWhile (site : Site σ) (P : String → Prop) (host : Host) (m : Meaning σ) : Prop :=
  ∀ (condition : Expr) (body : List Stmt) (bodyType : Option TypeNode)
    (result : Option (String × TypeNode)) (L M : Lowerer)
    (layout : WhileLayout P result (lowerExpr host condition)
      (inScope (lowerTail host body bodyType)) L M) (o : Origin σ)
    (head : List (String × String)) (tail : Scoping),
    (∀ name ∈ condition.declared, P name) → (∀ name ∈ declaredStmts body, P name) →
    Regular P o.lowerer L →
    Loop site P o head tail result (L.nextBlock + 4) L.nextBlock layout.C M →
    ∀ state frame store value, At site P o (head :: tail) layout.C state frame store →
      Holds result frame value →
      Leads site.next (Ended site P o (head :: tail) result M) (Exits site o tail)
        (site.here layout.C frame store) (m.whileLoop condition body value state)

section While

variable {context : Context σ} {host : Host} {m : Meaning σ}

theorem Holds.kept (loop : Loop site P o head tail result exitBlock conditionBlock C M)
    {Γ : Scoping} {state' : State σ} (here : At site P o (head :: tail) L state frame store)
    (later : At site P ⟨L, frame, store⟩ Γ N state' frame' store')
    (used : ∀ entry ∈ result, entry.1 ∈ L.used) (holds : Holds result frame value) :
    Holds result frame' value := fun entry inside =>
  here.kept loop.start loop.cut later (holds entry inside) (loop.fresh entry inside)
    (used entry inside)

theorem Holds.keeps (loop : Loop site P o head tail result exitBlock conditionBlock C M)
    (here : At site P o (head :: tail) L state frame store)
    (keeps : Keeps L frame store frame' store') (used : ∀ entry ∈ result, entry.1 ∈ L.used)
    (holds : Holds result frame value) : Holds result frame' value := by
  intro entry inside
  rw [keeps.hidden _ (used entry inside) ?_, holds entry inside]
  rw [visible, ← here.cut]
  exact loop.start.lexical.hides (loop.fresh entry inside) loop.cut

theorem SimWhile.step (sameHost : site.machine.runtime.host = context.runtime.host)
    (exprs : ∀ e : Expr, (∀ name ∈ e.declared, P name) →
      SimExpr site P (lowerExpr host e) (m.expr e))
    (tails : ∀ (body : List Stmt) (type : Option TypeNode), (∀ name ∈ declaredStmts body, P name) →
        SimTail site P (lowerTail host body type) (executeStatements m body .unit))
    (loops : SimWhile site P host m) {n : Meaning σ} (isStep : n.whileLoop = whileStep context m) :
    SimWhile site P host n := by
  intro condition body bodyType result L M layout o head tail declared declared' grown loop state
    frame store value here holds
  rw [isStep]
  have partB'' := layout.toExit.before loop.exit
  have partB' := layout.turnGrown.toEmbeds.trans partB''
  have partB := layout.bodyGrown.toEmbeds.trans partB'
  have partD := layout.toBody.before partB
  have partE' := layout.toDecision.before partD
  have partE := layout.errorGrown.toEmbeds.trans partE'
  have tested := layout.toError.closed partE
  have partA := ((tested.before_close layout.toError.free).before_reserve.before_push
    layout.grown.free).before_bump
  obtain ⟨_, toExit⟩ := loop.toExit
  refine here.expr (exprs condition declared) layout.lowered partA ?_
  intro tried state₁ frame₁ store₁ there later known
  have usedA : ∀ entry ∈ result, entry.1 ∈ layout.A.used := fun entry inside =>
    layout.grown.used (loop.used entry inside)
  have usedE : ∀ entry ∈ result, entry.1 ∈ layout.E.used := by
    rw [layout.toError.used]
    exact usedA
  have holds₁ := holds.kept loop here later loop.used
  obtain ⟨steps, atTest⟩ := there.testError known tested layout.toError.free
    (layout.toError.made partE) (layout.toDecision.made partD)
  refine .after steps ?_
  have moved := there.trans atTest
  have known₁ := atTest.value known layout.bound
  have holds₂ := holds₁.kept loop there atTest usedA
  cases failed : tried.isError with
  | true =>
    rw [failed] at moved known₁ holds₂
    refine moved.enter loop.start loop.cut (layout.toError.begins.from grown) fun entered => ?_
    refine entered.keep loop.fresh usedE loop.start loop.cut holds₂ known₁
      layout.errorKept partE' ?_
    intro frame₂ kept holds₃ _
    refine kept.jump loop.start loop.cut (layout.toDecision.closed partD) toExit loop.exit
      fun arrived => ?_
    exact .here ⟨_, _, rfl, arrived, holds₃⟩
  | false =>
    rw [failed] at moved known₁ holds₂
    refine moved.enter loop.start loop.cut (layout.toDecision.begins.from grown) fun entered => ?_
    refine .after (.single (Site.next_branch (layout.toBody.closed partB) entered.ready.inside
      (layout.toBody.made partB) (layout.toExit.made loop.exit) known₁ failed)) ?_
    rw [sameHost]
    cases goesOn : context.runtime.host.truthy tried with
    | false =>
      refine entered.enter loop.start loop.cut toExit fun arrived => ?_
      exact .here ⟨_, _, rfl, arrived, holds₂⟩
    | true =>
      refine entered.enter loop.start loop.cut (layout.toBody.begins.from grown) fun inBody => ?_
      have usedB : ∀ entry ∈ result, entry.1 ∈ layout.B.used := by
        rw [layout.toBody.used, layout.toDecision.used]
        exact fun entry inside => layout.errorGrown.used (usedE entry inside)
      obtain ⟨N₀, looped, isB'⟩ := inLoop_ok.mp layout.bodyLowered
      obtain ⟨N, lowered, rfl⟩ := inScope_ok.mp looped
      have partN : Embeds N site.final := (isB' ▸ partB').before rfl rfl (Subset.refl _)
      have within : Within P o.lowerer N.outBody := by
        have whole := grown.within.trans (layout.toBody.regular.within.trans layout.bodyGrown)
        rw [isB'] at whole
        exact whole
      refine inBody.turn (N := N) loop layout.bodyId within
        ((inBody.inBody _ _).tailLast (tails body bodyType declared') lowered partN ?_) ?_ ?_ ?_
      · intro id value' inner state₂ frame₂ store₂ isId ended known₂
        exact .here ⟨id, isId, ended.ready.free, rfl, known₂, ⟨inner, ended.linked⟩, ended.keeps⟩
      · intro id value' state₂ frame₂ store₂ isId ended keeps known₂
        have turned : lowerTurn result (some id) (L.nextBlock + 4) L.nextBlock N.outBody =
            .ok () layout.B'' := by
          have turned := layout.turned
          rw [isB', isId] at turned
          exact turned
        have usedN : ∀ entry ∈ result, entry.1 ∈ N.outBody.used := fun entry inside => by
          have old := layout.bodyGrown.used (usedB entry inside)
          rw [isB'] at old
          exact old
        refine ended.endTurn loop usedN (holds₂.keeps loop inBody keeps usedB) known₂ turned
          partB'' ?_ ?_
        · intro isError frame₃ arrived holds₃
          simp only [isError, if_true]
          exact .here ⟨_, _, rfl, arrived, holds₃⟩
        · intro noError frame₃ again holds₃ _
          simp only [noError, false_eq_true, if_false]
          exact loops condition body bodyType result L M layout o head tail declared declared'
            grown loop _ _ _ _ again holds₃
      · intro state₂ frame₂ store₂ again keeps
        exact loops condition body bodyType result L M layout o head tail declared declared'
          grown loop _ _ _ _ again (holds₂.keeps loop inBody keeps usedB)
      · intro state₂ frame₂ store₂ arrived keeps
        exact .here ⟨_, _, rfl, arrived, holds₂.keeps loop inBody keeps usedB⟩

end While

/-! ## For loops -/

variable {name : String} {itemType : TypeNode} {iterable : Lower ValueId}

/-- What the turns have in common is there for a for loop. -/
theorem ForLayout.loop
    (layout : ForLayout P result name itemType iterable body L M) (grown : Regular P o.lowerer L)
    (start : Ready o.lowerer) (cut : (head :: tail).flatten = o.lowerer.scopes.flatten)
    (fresh : ∀ entry ∈ result, entry.1 ∉ o.lowerer.used)
    (used : ∀ entry ∈ result, entry.1 ∈ L.used) (part : Embeds M site.final) :
    Loop site P o head tail result (layout.A.nextBlock + 4) (layout.A.nextBlock + 2) layout.C
      M where
  start := start
  cut := cut
  fresh := fresh
  used entry inside := layout.toCondition.regular.used (used entry inside)
  toCondition := ⟨_, layout.toCondition.begins.from grown⟩
  toExit := ⟨_, layout.toExit.from grown⟩
  condition := by
    have partB := (layout.bodyGrown.trans layout.turnGrown).toEmbeds.trans
      (layout.toExit.before part)
    have partC' := layout.toBody.before partB
    rw [layout.isCondition] at partC'
    exact (partC'.before_push layout.toCondition.regular.free).before_bump
  exit := part

/-- The iterator of a loop has some items left. -/
def Iterating (o : Origin σ) (iterator : ValueId) (items : List Value) (frame : Frame)
    (store : Store σ) : Prop :=
  ∃ address values index, o.store.objects.length ≤ address ∧
    frame.values iterator = some (.object address) ∧
    store.objects[address]? = some (.iterator values index) ∧ values.drop index = items

variable {iterator : ValueId} {items : List Value}

theorem Iterating.later (iterating : Iterating o iterator items frame store)
    (same : frame'.values iterator = frame.values iterator)
    (objects : store.objects <+: store'.objects) : Iterating o iterator items frame' store' := by
  obtain ⟨address, values, index, later, register, found, left⟩ := iterating
  exact ⟨address, values, index, later, same.trans register, objects_kept objects found, left⟩

theorem Iterating.hasNext (iterating : Iterating o iterator items frame store) :
    ∃ value, frame.values iterator = some value ∧
      iterHasNext value store = .ok (.bool (!items.isEmpty)) store := by
  obtain ⟨address, values, index, -, register, found, rfl⟩ := iterating
  refine ⟨_, register, ?_⟩
  have more : decide (index < values.length) = !(values.drop index).isEmpty := by
    by_cases inside : index < values.length
    · have nonempty : values.drop index ≠ [] := by simpa using inside
      simp [inside, nonempty]
    · simp [inside, List.drop_eq_nil_of_le (Nat.le_of_not_lt inside)]
  simp [iterHasNext, withIterator, objectOf, found, more]

variable {item : Value}

theorem Iterating.next (iterating : Iterating o iterator (item :: items) frame store) :
    ∃ value address object, frame.values iterator = some value ∧ o.store.objects.length ≤ address ∧
      iterNext value store = .ok item { store with objects := store.objects.set address object } ∧
      Iterating o iterator items frame
        { store with objects := store.objects.set address object } := by
  obtain ⟨address, values, index, later, register, found, left⟩ := iterating
  have inside : index < values.length := by
    by_contra outside
    rw [List.drop_eq_nil_of_le (by omega)] at left
    cases left
  have split := List.drop_eq_getElem_cons inside
  rw [left] at split
  obtain ⟨rfl, rest⟩ := cons.inj split
  refine ⟨_, address, .iterator values (index + 1), register, later, ?_, address, values,
    index + 1, later, register, ?_, rest.symm⟩
  · simp [iterNext, withIterator, objectOf, found, inside, update, andThen]
  · exact List.getElem?_set_self (List.getElem?_eq_some_iff.mp found).1

theorem At.handOut (here : At site P o (head :: tail) M state frame store)
    (embeds : Embeds (M.bump.push (.iterNext (M.nextValue : Int) iterator itemType)) site.final)
    {counter : Value} (register : frame.values iterator = some counter) {address : Nat}
    {object : Object} (later : o.store.objects.length ≤ address) (handed : iterNext counter store =
      .ok item { store with objects := store.objects.set address object }) :
    site.next (site.here M frame store)
        (site.here (M.bump.push (.iterNext (M.nextValue : Int) iterator itemType))
          (frame.set (M.nextValue : Int) item)
          { store with objects := store.objects.set address object }) ∧
      At site P o (head :: tail) (M.bump.push (.iterNext (M.nextValue : Int) iterator itemType))
        state (frame.set (M.nextValue : Int) item)
        { store with objects := store.objects.set address object } := by
  have grown := (Regular.refl (P := P) here.ready).emitValue
    (.iterNext (M.nextValue : Int) iterator itemType)
  refine ⟨Site.next_push (L := M.bump) embeds here.ready.inside (.of_forall fun fuel => ?_),
    here.grown.trans (grown.orderly here.ready), grown.ready here.ready, here.cut, ?_, ?_⟩
  · simp [executeInstruction, Frame.assign, read_known register, handed, Comp.pure_bind,
      andThen]
  · exact ⟨here.linked.scopes, here.linked.host, here.linked.depth, here.linked.unbound⟩
  · have kept : Keeps o.lowerer o.frame o.store frame
        { store with objects := store.objects.set address object } :=
      ⟨here.keeps.values, here.keeps.hidden, prefix_set here.keeps.objects later object⟩
    exact kept.set (Int.ofNat_le.mpr here.grown.values) _

section For

variable {host : Host} {m : Meaning σ} (generated : ∀ name, Generated name → P name)

include generated

variable {name : String} {body : Lower (Option ValueId)} {itemType : TypeNode}
  {bodyId : Option ValueId}

/-- What is lowered for a body starts with the instruction that hands out the item. -/
theorem forBody_embeds (declared : P name) (lowers : LowersTail P body) {B : Lowerer}
    (ready : Ready B) (done : lowerForBody name itemType iterator (inScope body)
      (B.inBody exitBlock conditionBlock) = .ok bodyId N) (embeds : Embeds N site.final) :
    Embeds (B.bump.push (.iterNext (B.nextValue : Int) iterator itemType)) site.final := by
  simp only [lowerForBody, emitValue_then] at done
  obtain ⟨-, done⟩ := done
  obtain ⟨internal, A, named, done⟩ := bind_ok.mp done
  simp only [emit_then] at done
  obtain ⟨free, done⟩ := done
  have readyB : Ready (B.inBody exitBlock conditionBlock) :=
    (ready.enterLoop ((exitBlock, conditionBlock) :: B.loopTargets)).enter
  have readyI := ((Regular.refl (P := P) readyB).emitValue
    (.iterNext (B.nextValue : Int) iterator itemType)).ready readyB
  have grownA := bindingName_orderly generated declared named readyI
  have bound := grownA.push free (.bind internal (B.nextValue : Int) false itemType)
  have grownN := lowers.inScope _ _ _ done (bound.ready readyI (by simpa using free))
  exact (bound.toEmbeds.trans (grownN.1.toEmbeds.trans embeds)).before rfl rfl (Subset.refl _)

/-- The body of a for loop: the item is bound, and the statements run in a scope that is one
with it for the interpreter. -/
theorem At.forBody (declared : P name) {x : Eval σ Value} (part : SimTail site P body x)
    {B N : Lowerer} (here : At site P o (head :: tail)
      (B.bump.push (.iterNext (B.nextValue : Int) iterator itemType)) state frame store)
    (known : frame.values (B.nextValue : Int) = some item)
    (done : lowerForBody name itemType iterator (inScope body)
      (B.inBody exitBlock conditionBlock) = .ok bodyId N) (embeds : Embeds N site.final) :
    Leads site.next
      (fun value state' c => ∃ id, bodyId = some id ∧ N.terminated = false ∧
        c = site.here N c.frame c.store ∧ c.frame.values id = some value ∧
        Left site ⟨(B.bump.push (.iterNext (B.nextValue : Int) iterator itemType)).inBody exitBlock
          conditionBlock, frame, store⟩ (head :: tail) state' c)
      (Exits site ⟨(B.bump.push (.iterNext (B.nextValue : Int) iterator itemType)).inBody exitBlock
        conditionBlock, frame, store⟩ (head :: tail))
      (site.here (B.bump.push (.iterNext (B.nextValue : Int) iterator itemType)) frame store)
      ((do
        Ast.define name ⟨item, false⟩
        x) { state with scopes := [] :: state.scopes }) := by
  simp only [lowerForBody, emitValue_then] at done
  obtain ⟨-, done⟩ := done
  obtain ⟨internal, A, named, done⟩ := bind_ok.mp done
  simp only [emit_then] at done
  obtain ⟨free, done⟩ := done
  obtain ⟨N, lowered, rfl⟩ := inScope_ok.mp done
  have inside := here.inBody exitBlock conditionBlock
  have grownA := bindingName_orderly generated declared named inside.ready
  have bound := grownA.push free (.bind internal (B.nextValue : Int) false itemType)
  have readyA := bound.ready inside.ready (by simpa using free)
  have partN : Embeds N site.final := embeds.before rfl rfl (Subset.refl _)
  have grownN := part.lowers _ _ _ lowered readyA.enter
  have partA : Embeds (A.push (.bind internal (B.nextValue : Int) false itemType)) site.final :=
    Embeds.before (grownN.1.toEmbeds.trans partN) rfl rfl (Subset.refl _)
  obtain ⟨stepped, defined⟩ := inside.define generated declared named partA known
  refine .after (.single stepped) ?_
  -- The statements run in one more scope of the lowerer than of the interpreter.
  have ran := part.runs _ _ _ lowered readyA.enter partN [(name, internal)] (head :: tail) _ _ _
    (by simpa using defined.cut) defined.linked
  have keeps {frame' : Frame} {store' : Store σ} (kept : Keeps
      { A.push (.bind internal (B.nextValue : Int) false itemType) with
        scopes := [] :: (A.push (.bind internal (B.nextValue : Int) false itemType)).scopes }
      (frame.bind internal ⟨item, false⟩) store frame' store') :=
    defined.keeps.trans defined.grown
      (kept.congr le_rfl (Subset.refl _) (visible_enter _ ▸ Subset.refl _))
  refine ran.mono ?_ ?_
  · rintro value state' c ⟨id, isId, inner, frame', store', rfl, ended, known'⟩
    exact ⟨id, isId, ended.ready.free, rfl, known', ⟨inner, ended.linked⟩, keeps ended.keeps⟩
  · intro signal state' c exit
    exact exit.congr defined.grown.loops keeps

/-- The turns of a for loop from its condition on. -/
theorem At.forItems (declared : P name) {body : List Stmt} {bodyType : Option TypeNode}
    (part : SimTail site P (lowerTail host body bodyType) (executeStatements m body .unit))
    (layout : ForLayout P result name itemType iterable
      (inScope (lowerTail host body bodyType)) L M) (grown : Regular P o.lowerer L)
    (loop : Loop site P o head tail result (layout.A.nextBlock + 4) (layout.A.nextBlock + 2)
      layout.C M) (items : List Value)
    (here : At site P o (head :: tail) layout.C state frame store)
    (holds : Holds result frame value)
    (iterating : Iterating o (layout.I.nextValue : Int) items frame store) :
    Leads site.next (Ended site P o (head :: tail) result M) (Exits site o tail)
      (site.here layout.C frame store) (Ast.forItems m name body items value state) := by
  have partB'' := layout.toExit.before loop.exit
  have partB' := layout.turnGrown.toEmbeds.trans partB''
  have partB := layout.bodyGrown.toEmbeds.trans partB'
  have closed : Embeds (((layout.C.bump.push (.iterHasNext (layout.C.nextValue : Int)
      (layout.I.nextValue : Int) .bool)).reserve 0).close (.branch (layout.C.nextValue : Int)
      (layout.A.nextBlock + 3 : Nat) (layout.A.nextBlock + 4 : Nat))) site.final :=
    layout.isCondition ▸ layout.toBody.closed partB
  have free := layout.toBody.free
  rw [layout.isCondition] at free
  have low : (layout.I.nextValue : Int) < (layout.C.nextValue : Int) := by
    have later : layout.C.nextValue = layout.I'.nextValue := by
      rw [layout.toCondition.begins.eq]
      rfl
    rw [later, layout.isInit]
    simp
  obtain ⟨_, toExit⟩ := loop.toExit
  have toBody := layout.toBody.begins.from grown
  induction items generalizing state frame store value with
  | nil =>
    obtain ⟨counter, register, tested⟩ := iterating.hasNext
    have executes (fuel : Nat) : executeInstruction site.machine (site.calls fuel)
        site.moduleKey frame
        (.iterHasNext (layout.C.nextValue : Int) (layout.I.nextValue : Int) .bool) store =
          .ok (frame.set (layout.C.nextValue : Int) (.bool false)) store := by
      simp [executeInstruction, Frame.assign, read_known register, tested, Comp.pure_bind,
        andThen]
    obtain ⟨steps, atTest⟩ := here.test
      (i := fun target => .iterHasNext target (layout.I.nextValue : Int) .bool) executes
      closed free (layout.toBody.made partB) (layout.toExit.made loop.exit)
    refine .after steps ?_
    refine (here.trans atTest).enter loop.start loop.cut toExit fun arrived => ?_
    exact .here ⟨_, _, rfl, arrived, holds.kept loop here atTest loop.used⟩
  | cons item items ih =>
    obtain ⟨counter, register, tested⟩ := iterating.hasNext
    have executes (fuel : Nat) : executeInstruction site.machine (site.calls fuel)
        site.moduleKey frame
        (.iterHasNext (layout.C.nextValue : Int) (layout.I.nextValue : Int) .bool) store =
          .ok (frame.set (layout.C.nextValue : Int) (.bool true)) store := by
      simp [executeInstruction, Frame.assign, read_known register, tested, Comp.pure_bind,
        andThen]
    obtain ⟨steps, atTest⟩ := here.test
      (i := fun target => .iterHasNext target (layout.I.nextValue : Int) .bool) executes
      closed free (layout.toBody.made partB) (layout.toExit.made loop.exit)
    refine .after steps ?_
    refine (here.trans atTest).enter loop.start loop.cut toBody fun inBody => ?_
    have usedB : ∀ entry ∈ result, entry.1 ∈ layout.B.used := by
      rw [layout.toBody.used, layout.isCondition]
      exact loop.used
    have lowB : (layout.I.nextValue : Int) < (layout.B.nextValue : Int) := by
      have later : layout.B.nextValue = layout.C'.nextValue := by
        rw [layout.toBody.begins.eq]
        rfl
      rw [later, layout.isCondition]
      exact low.trans (by simp)
    have iterating₁ := iterating.later (atTest.keeps.values _ low) atTest.keeps.objects
    obtain ⟨counter', address, object, register', later, handed, iterating₂⟩ := iterating₁.next
    obtain ⟨N₀, looped, isB'⟩ := inScope_ok.mp layout.bodyLowered
    obtain ⟨N, lowered, rfl⟩ := inLoop_ok.mp looped
    have partN : Embeds N site.final := (isB' ▸ partB').before rfl rfl (Subset.refl _)
    have pushed := forBody_embeds generated declared part.lowers inBody.ready lowered partN
    have within : Within P o.lowerer N.outBody := by
      have whole := grown.within.trans (layout.toBody.regular.within.trans layout.bodyGrown)
      rw [isB'] at whole
      exact whole
    have usedN : ∀ entry ∈ result, entry.1 ∈ N.outBody.used := fun entry inside => by
      have old := layout.bodyGrown.used (usedB entry inside)
      rw [isB'] at old
      exact old
    obtain ⟨stepped, atNext⟩ := inBody.handOut pushed register' later handed
    refine .after (.single stepped) ?_
    have apart : ((frame.set (layout.C.nextValue : Int) (.bool true)).set
        (layout.B.nextValue : Int) item).values (layout.I.nextValue : Int) =
        (frame.set (layout.C.nextValue : Int) (.bool true)).values (layout.I.nextValue : Int) := by
      simp only [Frame.set]
      rw [update_of_ne (ne_of_lt lowB)]
    have holds₁ := (holds.kept loop here atTest loop.used).keeps loop inBody
      (Keeps.refl.set le_rfl item) usedB
    have lowB' : (layout.I.nextValue : Int) < ((layout.B.bump.push (.iterNext
        (layout.B.nextValue : Int) (layout.I.nextValue : Int) itemType)).nextValue : Int) :=
      lowB.trans (by simp)
    have lowN : (layout.I.nextValue : Int) < (N.outBody.nextValue : Int) := by
      have values := layout.bodyGrown.values
      rw [isB'] at values
      exact lowB.trans_le (Int.ofNat_le.mpr values)
    refine atNext.turn (N := N) loop layout.bodyId within
      (atNext.forBody generated declared part (by simp [Frame.set]) lowered partN) ?_ ?_ ?_
    · intro id value' state₂ frame₂ store₂ isId ended keeps known₂
      have turned : lowerTurn result (some id) (layout.A.nextBlock + 4) (layout.A.nextBlock + 2)
          N.outBody = .ok () layout.B'' := by
        have turned := layout.turned
        rw [isB', isId] at turned
        exact turned
      have iterating₃ := iterating₂.later (apart ▸ keeps.values _ lowB') keeps.objects
      refine ended.endTurn loop usedN (holds₁.keeps loop atNext keeps usedB) known₂ turned
        partB'' ?_ ?_
      · intro isError frame₃ arrived holds₃
        simp only [isError, if_true]
        exact .here ⟨_, _, rfl, arrived, holds₃⟩
      · intro noError frame₃ again holds₃ values
        simp only [noError, false_eq_true, if_false]
        exact ih again holds₃ (iterating₃.later (values _ lowN) prefix_rfl)
    · intro state₂ frame₂ store₂ again keeps
      exact ih again (holds₁.keeps loop atNext keeps usedB)
        (iterating₂.later (apart ▸ keeps.values _ lowB') keeps.objects)
    · intro state₂ frame₂ store₂ arrived keeps
      exact .here ⟨_, _, rfl, arrived, holds₁.keeps loop atNext keeps usedB⟩

end For

/-! ## Loops as statements and as values -/

/-- A loop from its start to its end, with or without a binding for its result. -/
structure SimLoop (site : Site σ) (P : String → Prop)
    (loop : Option (String × TypeNode) → Lower Unit) (x : Eval σ Value) : Prop where
  lowers : ∀ result, LowersPart P (loop result)
  runs : ∀ result L M (o : Origin σ) head tail, loop result L = .ok () M → Ready L →
    Regular P o.lowerer L → Ready o.lowerer → (head :: tail).flatten = o.lowerer.scopes.flatten →
    (∀ entry ∈ result, entry.1 ∉ o.lowerer.used) → (∀ entry ∈ result, entry.1 ∈ L.used) →
    Embeds M site.final → ∀ state frame store, At site P o (head :: tail) L state frame store →
      Holds result frame .unit →
      Leads site.next (Ended site P o (head :: tail) result M) (Exits site o tail)
        (site.here L frame store) (x state)

variable {loop : Option (String × TypeNode) → Lower Unit} {x : Eval σ Value}

/-- A loop in statement position. -/
theorem SimLoop.toBlock (sim : SimLoop site P loop x) : SimBlock site P (loop none) x where
  lowers := (sim.lowers none).block
  runs := by
    intro L u L' done ready part head tail state frame store cut linked
    have ran := sim.runs none L L' ⟨L, frame, store⟩ head tail done ready (.refl ready) ready cut
      (fun entry inside => by cases inside) (fun entry inside => by cases inside) part state frame
      store (.refl ready cut linked) (fun entry inside => by cases inside)
    refine ran.mono ?_ fun _ _ _ exit => exit
    rintro value state' c ⟨frame', store', rfl, arrived, -⟩
    exact ⟨frame', store', rfl, arrived⟩

theorem SimLoop.toExpr (generated : ∀ name, Generated name → P name)
    (sim : SimLoop site P loop x) (purpose : String) (type : TypeNode) :
    SimExpr site P (lowerValueLoop purpose type loop) x where
  lowers := .valueLoop generated purpose type sim.lowers
  runs := by
    intro L id L' done ready part head tail state frame store cut linked
    simp only [lowerValueLoop, emitUnit, emitValue_then] at done
    obtain ⟨-, done⟩ := done
    obtain ⟨resultName, _, named, done⟩ := bind_ok.mp done
    obtain ⟨fresh, shape, number, rfl⟩ := newInternalName_ok named
    simp only [emit_then] at done
    obtain ⟨-, done⟩ := done
    obtain ⟨_, F, lowered, done⟩ := bind_ok.mp done
    obtain ⟨rfl, free, rfl⟩ := emitValue_ok.mp done
    have fits : P resultName := internal_fits generated shape
    have started := (Regular.refl (P := P) ready).emitValue (.unit (L.nextValue : Int) .void)
    have bound := (started.take fits number).push (.bind resultName (L.nextValue : Int) true type)
    have grown := sim.lowers _ _ _ _ lowered (bound.ready ready)
    have partF := (part.before_push free).before_bump
    have partB := grown.toEmbeds.trans partF
    have pushed := (partB.before_push (by simpa using started.free)).before_take
    obtain ⟨stepped, atUnit⟩ := (At.refl (P := P) ready cut linked).emitPure
      (i := fun target => .unit target .void) pushed fun fuel => rfl
    obtain ⟨stepped', atBound⟩ := atUnit.bindNew ready cut partB
      (by simp [Frame.set] : _ = some Value.unit) fresh fits
    refine .after (.head stepped (.single stepped')) ?_
    have ran := sim.runs (some (resultName, type)) _ F ⟨L, frame, store⟩ head tail lowered
      (bound.ready ready) bound ready cut ?_ ?_ partF state _ _ atBound ?_
    · refine ran.extend ?_ fun _ _ _ exit => exit
      rintro value state' c ⟨frame', store', rfl, arrived, holds⟩
      exact arrived.loadResult ⟨value, true⟩ part (holds _ rfl)
    · rintro _ ⟨rfl⟩
      exact fresh
    · rintro _ ⟨rfl⟩
      simp
    · rintro _ ⟨rfl⟩
      simp [Frame.bind]

section Forms

variable {host : Host} {m : Meaning σ} (generated : ∀ name, Generated name → P name)
  (exprs : ∀ e : Expr, (∀ name ∈ e.declared, P name) → SimExpr site P (lowerExpr host e) (m.expr e))
  {bodyType : Option TypeNode}

theorem SimWhile.toLoop (loops : SimWhile site P host m) {condition : Expr} {body : List Stmt}
    (declared : ∀ name ∈ condition.declared, P name)
    (declared' : ∀ name ∈ declaredStmts body, P name)
    (lowersCondition : LowersExpr P (lowerExpr host condition))
    (lowersBody : LowersTail P (lowerTail host body bodyType)) :
    SimLoop site P (fun result => lowerWhile result (lowerExpr host condition)
      (inScope (lowerTail host body bodyType))) (m.whileLoop condition body .unit) where
  lowers result := .whileDo result lowersCondition lowersBody.inScope
  runs := by
    intro result L M o head tail done ready grown start cut fresh used part state frame store here
      holds
    obtain ⟨layout⟩ := lowerWhile_layout lowersCondition lowersBody.inScope done ready
    have loop := layout.loop grown start cut fresh used part
    have closed := layout.toCondition.closed loop.condition
    have atReserve := here.move (N := L.reserve 5)
      ((grown.within.reserve 5).orderly start)
      ((grown.within.reserve 5).ready start layout.toCondition.free) (by simp)
    rw [← Site.here_reserve ready.inside 5]
    refine atReserve.jump start cut closed (layout.toCondition.begins.from grown) loop.condition
      fun entered => ?_
    exact loops condition body bodyType result L M layout o head tail declared declared' grown loop
      _ _ _ _ entered holds

include generated exprs

theorem SimLoop.forIn {iterable : Expr} {body : List Stmt}
    (declaredName : P name) (declared : ∀ name ∈ iterable.declared, P name)
    (part : SimTail site P (lowerTail host body bodyType) (executeStatements m body .unit))
    (itemType : TypeNode) :
    SimLoop site P (fun result => lowerFor result name itemType (lowerExpr host iterable)
      (inScope (lowerTail host body bodyType))) (forStep m name iterable body) where
  lowers result := .forIn generated result (exprs iterable declared).lowers part.lowers.inScope
    declaredName itemType
  runs := by
    intro result L M o head tail done ready grown start cut fresh used partM state frame store here
      holds
    have first := exprs iterable declared
    obtain ⟨layout⟩ := lowerFor_layout generated first.lowers part.lowers.inScope declaredName done
      ready
    have loop := layout.loop grown start cut fresh used partM
    have partI' := layout.toCondition.before loop.condition
    have partI : Embeds layout.I site.final := by
      rw [layout.isInit] at partI'
      exact (partI'.before_push layout.toInit.regular.free).before_bump
    have partE' := layout.toInit.before partI
    have partE := layout.errorGrown.toEmbeds.trans partE'
    have tested := layout.toError.closed partE
    have partA := ((tested.before_close layout.toError.free).before_reserve.before_push
      layout.grown.free).before_bump
    obtain ⟨_, toExit⟩ := loop.toExit
    refine here.expr first layout.lowered partA ?_
    intro tried state₁ frame₁ store₁ there later known
    have holds₁ := holds.kept loop here later used
    have usedA : ∀ entry ∈ result, entry.1 ∈ layout.A.used := fun entry inside =>
      layout.grown.used (used entry inside)
    obtain ⟨steps, atTest⟩ := there.testError known tested layout.toError.free
      (layout.toError.made partE) (layout.toInit.made partI)
    refine .after steps ?_
    have moved := there.trans atTest
    have known₁ := atTest.value known layout.bound
    have holds₂ := holds₁.kept loop there atTest usedA
    cases failed : tried.isError with
    | true =>
      rw [failed] at moved known₁ holds₂
      refine moved.enter start cut (layout.toError.begins.from grown) fun entered => ?_
      have usedE : ∀ entry ∈ result, entry.1 ∈ layout.E.used := by
        rw [layout.toError.used]
        simpa [Lowerer.test] using usedA
      refine entered.keep fresh usedE start cut holds₂ known₁ layout.errorKept partE' ?_
      intro frame₂ kept holds₃ _
      refine kept.jump start cut (layout.toInit.closed partI) toExit partM fun arrived => ?_
      cases tried with
      | error message => exact .here ⟨_, _, rfl, arrived, holds₃⟩
      | _ => cases failed
    | false =>
      rw [failed] at moved known₁ holds₂
      refine moved.enter start cut (layout.toInit.begins.from grown) fun entered => ?_
      cases tried with
      | error message => cases failed
      | list items =>
        rw [layout.isInit] at partI'
        have executes (fuel : Nat) : executeInstruction site.machine (site.calls fuel)
            site.moduleKey (frame₁.set (layout.A.nextValue : Int) (.bool false))
            (.iterInit (layout.I.nextValue : Int) layout.id (.generic "Iterator" [itemType]))
            store₁ = .ok ((frame₁.set (layout.A.nextValue : Int) (.bool false)).set
                (layout.I.nextValue : Int) (.object store₁.objects.length))
                { store₁ with objects := store₁.objects ++ [.iterator items 0] } := by
          simp [executeInstruction, Frame.assign, read_known known₁, iterInit, Mir.allocate,
            Comp.pure_bind, andThen]
        obtain ⟨stepped, atInit⟩ := entered.allocate (i := fun target =>
          .iterInit target layout.id (.generic "Iterator" [itemType])) partI' executes
        refine .after (.single stepped) ?_
        have closed := layout.toCondition.closed loop.condition
        rw [layout.isInit] at closed
        refine (entered.trans atInit).jump start cut closed (layout.toCondition.begins.from grown)
          loop.condition fun inLoop => ?_
        have usedI : ∀ entry ∈ result, entry.1 ∈ layout.I.used := fun entry inside =>
          layout.toInit.regular.used (used entry inside)
        refine inLoop.forItems generated declaredName part layout grown loop items
          (holds₂.kept loop entered atInit usedI) ?_
        refine ⟨store₁.objects.length, items, 0, there.keeps.objects.length_le, ?_, ?_, rfl⟩
        · simp [Frame.set]
        · simp
      | _ => exact .leave trivial

end Forms

end Koschei.Lowering
