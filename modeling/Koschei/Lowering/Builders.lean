import Koschei.Lowering.Branches

/-!
# Map and struct literals

A Map or a struct is built part by part in an object of the executor. An Error
among the parts is stored as the result and skips the rest; otherwise the object
is finished. The object exists only in the executor: the evaluation of lowered
code carries what has been collected so far in its arguments, and `Building` says
that the object has the same.
-/

namespace Koschei.Lowering

open Lib Ast Mir Filter Relation

variable {σ β : Type} {objects objects' : List Object} {address : Nat}

/-- Overwriting an object that was made later keeps those made before. -/
theorem prefix_set (kept : objects <+: objects')
    (later : objects.length ≤ address) (object : Object) :
    objects <+: objects'.set address object := by
  obtain ⟨rest, rfl⟩ := kept
  rw [List.set_append_right _ _ later]
  exact prefix_append _ _

/-- An object that existed when a piece of code started is still there. -/
theorem objects_kept (kept : objects <+: objects')
    {object : Object} (found : objects[address]? = some object) :
    objects'[address]? = some object := by
  obtain ⟨rest, rfl⟩ := kept
  rw [List.getElem?_append_left (List.getElem?_eq_some_iff.mp found).1, found]

/-- What the parts of a literal have in common: where the literal started, the register of
its builder, the binding of its result and the block where the parts join. -/
structure Literal (site : Site σ) (P : String → Prop) (o : Origin σ)
    (head : List (String × String)) (tail : Scoping) (resultName : String) (finalJoin : Nat)
    (J : Lowerer) : Prop where
  start : Ready o.lowerer
  cut : (head :: tail).flatten = o.lowerer.scopes.flatten
  fresh : resultName ∉ o.lowerer.used
  toJoin : ∃ K, Begins P o.lowerer K J finalJoin
  join : Embeds J site.final

/-- The executor stands between two parts, with an object under construction. -/
structure Building (site : Site σ) (P : String → Prop) (o : Origin σ) (Γ : Scoping)
    (builder : ValueId) (resultName : String) (object : Object) (M : Lowerer) (state : State σ)
    (frame : Frame) (store : Store σ) : Prop where
  here : At site P o Γ M state frame store
  used : resultName ∈ M.used
  low : builder < (M.nextValue : Int)
  object : ∃ address, o.store.objects.length ≤ address ∧
    frame.values builder = some (.object address) ∧ store.objects[address]? = some object
  result : ∃ old, frame.bindings resultName = some ⟨old, true⟩

variable {site : Site σ} {P : String → Prop} {o : Origin σ} {tail : Scoping}
  {head : List (String × String)} {builder : ValueId} {resultName : String} {finalJoin : Nat}
  {object : Object} {J M N : Lowerer} {state state' : State σ} {frame frame' : Frame}
  {store store' : Store σ} {arrives : Value → State σ → Config σ → Prop}
  {outcome : Outcome Signal (State σ) Value}

namespace Building

section

variable (here : Building site P o (head :: tail) builder resultName object M state frame store)

include here

/-- Code that starts here keeps the object. -/
theorem later (literal : Literal site P o head tail resultName finalJoin J)
    (there : At site P ⟨M, frame, store⟩ (head :: tail) N state' frame' store') :
    Building site P o (head :: tail) builder resultName object N state' frame' store' where
  here := here.here.trans there
  used := there.grown.used here.used
  low := here.low.trans_le (Int.ofNat_le.mpr there.grown.values)
  object := by
    obtain ⟨address, later, register, found⟩ := here.object
    exact ⟨address, later, there.value register here.low, objects_kept there.keeps.objects found⟩
  result := by
    obtain ⟨old, bound⟩ := here.result
    exact ⟨old, here.here.kept literal.start literal.cut there bound literal.fresh here.used⟩

theorem change {i : Instruction} (embeds : Embeds (M.push i) site.final) (object' : Object)
    (executes : ∀ fuel address, frame.values builder = some (.object address) →
      store.objects[address]? = some object →
      executeInstruction site.machine (site.calls fuel) site.moduleKey frame i store =
        .ok frame { store with objects := store.objects.set address object' }) :
    ∃ store', site.next (site.here M frame store) (site.here (M.push i) frame store') ∧
      Building site P o (head :: tail) builder resultName object' (M.push i) state frame
        store' := by
  obtain ⟨address, later, register, found⟩ := here.object
  have pushed := (Regular.refl (P := P) here.here.ready).push i
  refine ⟨_, Site.next_push embeds here.here.ready.inside
    (.of_forall fun fuel => executes fuel address register found), ?_⟩
  refine ⟨⟨here.here.grown.trans (pushed.orderly here.here.ready),
    pushed.ready here.here.ready, here.here.cut,
    here.here.linked.later here.here.linked.host here.here.linked.depth, ?_⟩, here.used, here.low,
    ⟨address, later, register, ?_⟩, here.result⟩
  · exact ⟨here.here.keeps.values, here.here.keeps.hidden,
      prefix_set here.here.keeps.objects later object'⟩
  · exact List.getElem?_set_self (List.getElem?_eq_some_iff.mp found).1

theorem checked (literal : Literal site P o head tail resultName finalJoin J) {type : TypeNode}
    {id : ValueId} {u : Unit} (done : storeErrorOrContinue id resultName type finalJoin M = .ok u N)
    (embeds : Embeds N site.final) {value : Value} (known : frame.values id = some value)
    (low : id < (M.nextValue : Int))
    (failed : value.isError = true → ∀ frame', At site P o (head :: tail) J state frame' store →
      frame'.bindings resultName = some ⟨value, true⟩ →
      Goes site o tail arrives J frame' store outcome) (goesOn : value.isError = false → ∀ frame',
      Building site P o (head :: tail) builder resultName object N state frame' store →
      At site P ⟨M, frame, store⟩ (head :: tail) N state frame' store →
      Goes site o tail arrives N frame' store outcome) :
    Goes site o tail arrives M frame store outcome := by
  obtain ⟨layout⟩ := storeErrorOrContinue_layout (P := P) done here.here.ready
  have ready := here.here.ready
  have cut := here.here.cut
  have partE := (layout.toNext.before embeds).before_push layout.toError.regular.free
  obtain ⟨steps, atTest⟩ := here.here.testError known (layout.toError.closed partE)
    layout.toError.free (layout.toError.made partE) (layout.toNext.made embeds)
  refine .after steps ?_
  have known₁ := atTest.value known low
  cases outcome : value.isError with
  | true =>
    rw [outcome] at atTest known₁
    refine atTest.enter ready cut layout.toError.begins fun entered => ?_
    have inError := here.later literal entered
    obtain ⟨old, bound⟩ := inError.result
    obtain ⟨stepped, stored⟩ := inError.here.storeHidden literal.start literal.cut
      (layout.toNext.before embeds) known₁
      bound literal.fresh inError.used
    refine .after (.single stepped) ?_
    obtain ⟨K, begins⟩ := literal.toJoin
    refine stored.jump literal.start literal.cut (layout.toNext.closed embeds) begins literal.join
      fun arrived => ?_
    exact failed outcome _ arrived (by simp [Frame.bind])
  | false =>
    rw [outcome] at atTest
    refine atTest.enter ready cut layout.toNext.begins fun entered => ?_
    exact goesOn outcome _ (here.later literal entered) entered

theorem finished (literal : Literal site P o head tail resultName finalJoin J)
    {type : TypeNode} (finish : ValueId → ValueId → Instruction) {x : Exec σ Value}
    (closed : Embeds (((M.bump.push (finish (M.nextValue : Int) builder)).push
      (.store resultName (M.nextValue : Int) type)).close (.jump finalJoin)) site.final)
    (part : Embeds (J.bump.push (.load (J.nextValue : Int) resultName type)) site.final)
    (executes : ∀ address value s', frame.values builder = some (.object address) →
      store.objects[address]? = some object → x state.store = .ok value s' →
      ∃ object', s'.depth = state.store.depth ∧
        ∀ fuel, executeInstruction site.machine (site.calls fuel) site.moduleKey frame
          (finish (M.nextValue : Int) builder) store = .ok (frame.set (M.nextValue : Int) value)
              ⟨s'.host, store.objects.set address object', store.depth⟩) :
    Leads site.next
      (HasValue site P o (head :: tail) (J.nextValue : Int)
        (J.bump.push (.load (J.nextValue : Int) resultName type)))
      (Exits site o tail) (site.here M frame store) (exec x state) := by
  unfold exec
  cases ran : x state.store with
  | timeout => trivial
  | raise fault s' => exact .leave trivial
  | ok value s' =>
    obtain ⟨address, later, register, found⟩ := here.object
    obtain ⟨object', depth, executed⟩ := executes address value s' register found ran
    have ready := here.here.ready
    have grown := (Regular.refl (P := P) ready).emitValue (finish (M.nextValue : Int) builder)
    have stored := closed.before_close (by simpa using ready.free)
    have pushed := stored.before_push (by simpa using ready.free)
    refine .after (.single (Site.next_push (L := M.bump) pushed ready.inside
      (.of_forall executed))) ?_
    have there : At site P o (head :: tail) (M.bump.push (finish (M.nextValue : Int) builder))
        { state with store := s' } (frame.set (M.nextValue : Int) value)
        ⟨s'.host, store.objects.set address object', store.depth⟩ := by
      refine ⟨here.here.grown.trans (grown.orderly ready), grown.ready ready, here.here.cut,
        Linked.set ?_ _ _, ?_⟩
      · exact here.here.linked.later rfl (here.here.linked.depth.trans depth.symm)
      · have kept : Keeps o.lowerer o.frame o.store frame
            ⟨s'.host, store.objects.set address object', store.depth⟩ :=
          ⟨here.here.keeps.values, here.here.keeps.hidden,
            prefix_set here.here.keeps.objects later object'⟩
        exact kept.set (Int.ofNat_le.mpr here.here.grown.values) _
    obtain ⟨old, bound⟩ := here.result
    obtain ⟨stepped, atStore⟩ := there.storeHidden literal.start literal.cut stored
      (by simp [Frame.set] : (frame.set (M.nextValue : Int) value).values (M.nextValue : Int) =
        some value) bound literal.fresh here.used
    refine .after (.single stepped) ?_
    obtain ⟨K, begins⟩ := literal.toJoin
    refine atStore.jump literal.start literal.cut closed begins literal.join fun arrived => ?_
    exact arrived.loadResult ⟨value, true⟩ part (by simp [Frame.bind])

end

end Building

theorem At.allocate (here : At site P o (head :: tail) M state frame store)
    {i : ValueId → Instruction} (embeds : Embeds (M.bump.push (i (M.nextValue : Int))) site.final)
    (executes : ∀ fuel, executeInstruction site.machine (site.calls fuel) site.moduleKey frame
      (i (M.nextValue : Int)) store =
        .ok (frame.set (M.nextValue : Int) (.object store.objects.length))
          { store with objects := store.objects ++ [object] }) :
    site.next (site.here M frame store)
        (site.here (M.bump.push (i (M.nextValue : Int)))
          (frame.set (M.nextValue : Int) (.object store.objects.length))
          { store with objects := store.objects ++ [object] }) ∧
      At site P ⟨M, frame, store⟩ (head :: tail) (M.bump.push (i (M.nextValue : Int))) state
        (frame.set (M.nextValue : Int) (.object store.objects.length))
        { store with objects := store.objects ++ [object] } := by
  have grown := (Regular.refl (P := P) here.ready).emitValue (i (M.nextValue : Int))
  refine ⟨Site.next_push (L := M.bump) embeds here.ready.inside (.of_forall executes),
    grown.orderly here.ready, grown.ready here.ready, here.cut, ?_, ?_⟩
  · exact ⟨here.linked.scopes, here.linked.host, here.linked.depth, here.linked.unbound⟩
  · exact (Keeps.refl.later (prefix_append _ _)).set le_rfl _

variable {type : TypeNode}

theorem SimExpr.built (generated : ∀ name, Generated name → P name) {purpose : String}
    {start : ValueId → Instruction} {finish : ValueId → ValueId → Instruction}
    {parts : ValueId → String → Nat → Lower Unit} (contract : Except Fault β)
    (object : β → Object) (body : β → Eval σ Value)
    (lowers : ∀ builder resultName finalJoin, LowersPart P (parts builder resultName finalJoin))
    (starts : ∀ frame target fuel, executeInstruction site.machine (site.calls fuel)
      site.moduleKey frame (start target) = frame.assign target (do
        let b ← lift contract
        allocate (object b)))
    (builds : ∀ o head tail builder resultName finalJoin J C F b state frame store,
      Literal site P o head tail resultName finalJoin J →
      parts builder resultName finalJoin C = .ok () F →
      Embeds (((F.bump.push (finish (F.nextValue : Int) builder)).push
        (.store resultName (F.nextValue : Int) type)).close (.jump finalJoin)) site.final →
      Embeds (J.bump.push (.load (J.nextValue : Int) resultName type)) site.final →
      Building site P o (head :: tail) builder resultName (object b) C state frame store →
      Leads site.next
        (HasValue site P o (head :: tail) (J.nextValue : Int)
          (J.bump.push (.load (J.nextValue : Int) resultName type)))
        (Exits site o tail) (site.here C frame store) (body b state)) :
    SimExpr site P (lowerBuilder purpose start finish parts type) (do
        let b ← exec (lift contract)
        body b) where
  lowers := .builder generated purpose start finish lowers type
  runs := by
    intro L id L' done ready part head tail state frame store cut linked
    obtain ⟨resultName, J, rfl, rfl, ⟨layout⟩⟩ := lowerBuilder_layout generated lowers done ready
    have partJ := (part.before_push layout.toJoin.regular.free).before_bump
    have closed := layout.toJoin.closed partJ
    have partF := (((layout.toJoin.before partJ).before_push
      (by simpa using layout.partsGrown.free)).before_push
      (by simpa using layout.partsGrown.free)).before_bump
    have partC := layout.partsGrown.toEmbeds.trans partF
    have bound := partC
    rw [layout.reserved] at bound
    have partB := bound.before_reserve
    have isB := layout.bound
    rw [isB] at partB
    have started := (partB.before_push (by simpa using ready.free)).before_take
    have here := At.refl (P := P) ready cut linked
    cases known : contract with
    | error fault => exact .leave trivial
    | ok b =>
      have executes (fuel : Nat) : executeInstruction site.machine (site.calls fuel)
          site.moduleKey frame (start (L.nextValue : Int)) store =
            .ok (frame.set (L.nextValue : Int) (.object store.objects.length))
              { store with objects := store.objects ++ [object b] } := by
        rw [starts, known]
        rfl
      obtain ⟨allocated, atStart⟩ := here.allocate started executes
      refine .after (.single allocated) ?_
      obtain ⟨stepped, atBound⟩ := atStart.bindNew ready cut partB
        (by simp [Frame.set] : _ = some (.object store.objects.length))
        layout.fresh layout.fits
      rw [← isB] at stepped atBound
      refine .after (.single stepped) ?_
      have atParts := atBound.move (N := layout.C) (layout.reservedGrown.orderly ready)
        (layout.reservedGrown.ready ready) (by rw [layout.reserved]; simp)
      have building : Building site P ⟨L, frame, store⟩ (head :: tail) (L.nextValue : Int)
          resultName (object b) layout.C state
          ((frame.set (L.nextValue : Int) (.object store.objects.length)).bind resultName
            ⟨.object store.objects.length, true⟩)
          { store with objects := store.objects ++ [object b] } := by
        refine ⟨atParts, ?_, ?_, ⟨store.objects.length, le_rfl, ?_, ?_⟩,
          ⟨.object store.objects.length, ?_⟩⟩
        · rw [layout.reserved, isB]
          simp
        · rw [layout.reserved, isB]
          simp
        · simp [Frame.set, Frame.bind]
        · simp
        · simp [Frame.bind]
      have ran := builds ⟨L, frame, store⟩ head tail _ resultName L.nextBlock J layout.C layout.F b
        state _ _ ⟨ready, cut, layout.fresh, ⟨_, layout.toJoin.begins⟩, partJ⟩
        layout.partsLowered closed part building
      rw [layout.reserved, Site.here_reserve layout.boundGrown.inside] at ran
      exact ran

/-! ## Maps -/

section Literals

variable {context : Context σ} (hosts : Hosts site context)
  (generated : ∀ name, Generated name → P name) {m : Meaning σ} {host : Host}
  (parts : ∀ e : Expr, (∀ name ∈ e.declared, P name) → SimExpr site P (lowerExpr host e) (m.expr e))

include hosts

theorem Building.entry {entries : List (String × Value)}
    (here : Building site P o (head :: tail) builder resultName (.mapBuilder entries false) M
      state frame store) (literal : Literal site P o head tail resultName finalJoin J)
    {key value : Lower ValueId} {x y : Eval σ Value} (first : SimExpr site P key x)
    (second : SimExpr site P value y) {u : Unit}
    (done : lowerEntry key value builder resultName type finalJoin M = .ok u N)
    (embeds : Embeds N site.final) {rest : List (String × Value) → Eval σ Value}
    (failed : ∀ value state' frame' store', At site P o (head :: tail) J state' frame' store' →
      frame'.bindings resultName = some ⟨value, true⟩ →
      Goes site o tail arrives J frame' store' (.ok value state'))
    (goesOn : ∀ entries' state' frame' store',
      Building site P o (head :: tail) builder resultName (.mapBuilder entries' false) N state'
        frame' store' →
      Goes site o tail arrives N frame' store' (rest entries' state')) :
    Goes site o tail arrives M frame store ((do
        let key ← x
        if key.isError then pure key
        else do
          let value ← y
          if value.isError then pure value
          else do
            let entries' ← exec (askLift fun host =>
              insertEntry context.runtime host entries key value)
            rest entries') state) := by
  obtain ⟨keyId, A, lowered, done⟩ := bind_ok.mp done
  obtain ⟨_, B, checked, done⟩ := bind_ok.mp done
  obtain ⟨valueId, C, lowered', done⟩ := bind_ok.mp done
  obtain ⟨_, D, checked', done⟩ := bind_ok.mp done
  obtain ⟨free, rfl⟩ := emit_ok.mp done
  have ready := here.here.ready
  obtain ⟨grown, low⟩ := first.lowers _ _ _ lowered ready
  have grownB := LowersPart.storeErrorOrContinue (P := P) _ _ _ _ _ _ _ checked (grown.ready ready)
  obtain ⟨grownC, low'⟩ := second.lowers _ _ _ lowered' (grownB.ready (grown.ready ready))
  have partD := embeds.before_push free
  have grownD := LowersPart.storeErrorOrContinue (P := P) _ _ _ _ _ _ _ checked'
    (grownC.ready (grownB.ready (grown.ready ready)))
  have partC := grownD.toEmbeds.trans partD
  have partB := grownC.toEmbeds.trans partC
  refine here.here.expr first lowered (grownB.toEmbeds.trans partB) ?_
  intro keyValue state₁ frame₁ store₁ _ there known
  refine (here.later literal there).checked literal checked partB known low ?_ ?_
  · intro isError frame' arrived bound
    simp only [isError, if_true]
    exact failed _ _ _ _ arrived bound
  intro noError frame₂ inB there₂
  simp only [noError, false_eq_true, if_false]
  refine inB.here.expr second lowered' partC ?_
  intro item state₃ frame₃ store₃ _ there₃ known₃
  refine (inB.later literal there₃).checked literal checked' partD known₃ low' ?_ ?_
  · intro isError frame' arrived bound
    simp only [isError, if_true]
    exact failed _ _ _ _ arrived bound
  intro noError' frame₄ inD there₄
  simp only [noError', false_eq_true, if_false]
  -- The key is read again after the item has been evaluated.
  have lowB : keyId < (B.nextValue : Int) := low.trans_le (Int.ofNat_le.mpr grownB.values)
  have lowC : keyId < (C.nextValue : Int) := lowB.trans_le (Int.ofNat_le.mpr grownC.values)
  have knownKey := there₄.value (there₃.value (there₂.value known low) lowB) lowC
  have knownItem := there₄.value known₃ low'
  simp only [bind_apply, exec, askLift, ← inD.here.linked.host]
  cases inserted : insertEntry context.runtime store₃.host entries keyValue item with
  | error fault => exact .leave trivial
  | ok entries' =>
    obtain ⟨store', stepped, changed⟩ := inD.change embeds (.mapBuilder entries' false)
      (fun fuel address register found => by
        simp [executeInstruction, read_known register, read_known knownKey,
          read_known knownItem, mapInsert, withMapBuilder, objectOf, found, hosts.runtime,
          askLift, inserted, update, bind_apply, andThen])
    exact .after (.single stepped) (goesOn entries' _ _ _ changed)

include generated parts

variable {collected : List (String × Value)}

theorem Building.entries
    (entries : List (Expr × Expr)) (declared : ∀ name ∈ declaredEntries entries, P name)
    (here : Building site P o (head :: tail) builder resultName (.mapBuilder collected false) M
      state frame store) (literal : Literal site P o head tail resultName finalJoin J)
    (done : lowerEntries host builder resultName type finalJoin entries M = .ok () N)
    (closed : Embeds (((N.bump.push (.mapFinish (N.nextValue : Int) builder type)).push
      (.store resultName (N.nextValue : Int) type)).close (.jump finalJoin)) site.final)
    (part : Embeds (J.bump.push (.load (J.nextValue : Int) resultName type)) site.final) :
    Leads site.next
      (HasValue site P o (head :: tail) (J.nextValue : Int)
        (J.bump.push (.load (J.nextValue : Int) resultName type)))
      (Exits site o tail) (site.here M frame store)
      (loweredMap context m entries collected state) := by
  induction entries generalizing collected M state frame store with
  | nil =>
    obtain ⟨-, rfl⟩ := pure_ok.mp done
    rw [loweredMap, ← exec_pure]
    refine here.finished literal (fun target builder => .mapFinish target builder type) closed
      part ?_
    intro address value s' register found ran
    obtain ⟨rfl, rfl⟩ := Outcome.ok.inj ran
    refine ⟨.mapBuilder collected true, rfl, fun fuel => ?_⟩
    simp [executeInstruction, Frame.assign, read_known register, mapFinish, withMapBuilder,
      objectOf, found, update, bind_apply, andThen, here.here.linked.host]
  | cons entry entries ih =>
    obtain ⟨key, value⟩ := entry
    simp only [declaredEntries, forall_mem_append] at declared
    have first := parts key declared.1.1
    have second := parts value declared.1.2
    have others : ∀ name ∈ declaredEntries entries, P name := declared.2
    obtain ⟨_, A, lowered, done⟩ := bind_ok.mp done
    have grown : Regular P M A := LowersPart.entry first.lowers second.lowers _ _ _ _ _ _ _
      lowered here.here.ready
    have grownN : Regular P A N := lowersEntries host generated _ _ _ _ entries others _ _ _ done
      (grown.ready here.here.ready)
    have partN := (((closed.before_close (by simpa using grownN.free)).before_push
      (by simpa using grownN.free)).before_push (by simpa using grownN.free)).before_bump
    refine here.entry hosts literal first second lowered (grownN.toEmbeds.trans partN) ?_ ?_
    · intro value state' frame' store' arrived bound
      exact arrived.loadResult ⟨value, true⟩ part bound
    · intro entries' state' frame' store' there
      exact ih others there done

theorem SimExpr.mapOf {entries : List (Expr × Expr)}
    (declared : ∀ name ∈ declaredEntries entries, P name) (type : TypeNode) :
    SimExpr site P (lowerMap (fun builder resultName finalJoin =>
        lowerEntries host builder resultName type finalJoin entries) type)
      (loweredMap context m entries []) := by
  refine SimExpr.built generated (.ok ()) (fun _ => .mapBuilder [] false)
    (fun _ => loweredMap context m entries [])
    (fun builder resultName finalJoin => lowersEntries host generated _ _ _ _ entries declared)
    (fun frame target fuel => rfl) ?_
  intro o head tail builder resultName finalJoin J C F _ state frame store literal done closed part
    here
  exact here.entries hosts generated parts entries declared literal done closed part

/-! ## Structs -/

omit generated parts in
theorem Building.field {declaration : StructDeclaration} {required : List String}
    {fields : List (String × Value)} {concrete : List TypeNode}
    (here : Building site P o (head :: tail) builder resultName
      (.structBuilder declaration required fields concrete false) M state frame store)
    (literal : Literal site P o head tail resultName finalJoin J) {name : String}
    {value : Lower ValueId} {x : Eval σ Value} (first : SimExpr site P value x) {type : TypeNode}
    {u : Unit} (done : lowerField name value builder resultName type finalJoin M = .ok u N)
    (embeds : Embeds N site.final) {rest : List (String × Value) → Eval σ Value}
    (failed : ∀ value state' frame' store', At site P o (head :: tail) J state' frame' store' →
      frame'.bindings resultName = some ⟨value, true⟩ →
      Goes site o tail arrives J frame' store' (.ok value state'))
    (goesOn : ∀ fields' state' frame' store', Building site P o (head :: tail) builder resultName
        (.structBuilder declaration required fields' concrete false) N state' frame' store' →
      Goes site o tail arrives N frame' store' (rest fields' state')) :
    Goes site o tail arrives M frame store ((do
        let value ← x
        if value.isError then pure value
        else do
          let fields' ← exec (askLift fun host => setField context.runtime host declaration
            required concrete fields name value)
          rest fields') state) := by
  obtain ⟨id, A, lowered, done⟩ := bind_ok.mp done
  obtain ⟨_, B, checked, done⟩ := bind_ok.mp done
  obtain ⟨free, rfl⟩ := emit_ok.mp done
  have ready := here.here.ready
  obtain ⟨grown, low⟩ := first.lowers _ _ _ lowered ready
  have grownB := LowersPart.storeErrorOrContinue (P := P) _ _ _ _ _ _ _ checked (grown.ready ready)
  have partB := embeds.before_push free
  refine here.here.expr first lowered (grownB.toEmbeds.trans partB) ?_
  intro item state₁ frame₁ store₁ _ there known
  refine (here.later literal there).checked literal checked partB known low ?_ ?_
  · intro isError frame' arrived bound
    simp only [isError, if_true]
    exact failed _ _ _ _ arrived bound
  intro noError frame₂ inB there₂
  simp only [noError, false_eq_true, if_false]
  have knownItem := there₂.value known low
  simp only [bind_apply, exec, askLift, ← inB.here.linked.host]
  cases admitted : setField context.runtime store₁.host declaration required concrete fields name
      item with
  | error fault => exact .leave trivial
  | ok fields' =>
    obtain ⟨store', stepped, changed⟩ := inB.change embeds
      (.structBuilder declaration required fields' concrete false)
      (fun fuel address register found => by
        simp [executeInstruction, read_known register, read_known knownItem, structSet,
          withStructBuilder, objectOf, found, hosts.runtime, askLift, admitted, update,
          bind_apply, andThen])
    exact .after (.single stepped) (goesOn fields' _ _ _ changed)

theorem Building.fields {declaration : StructDeclaration}
    {required : List String} {concrete : List TypeNode}
    (fields : List (String × Expr)) (declared : ∀ name ∈ declaredFields fields, P name)
    (here : Building site P o (head :: tail) builder resultName
      (.structBuilder declaration required collected concrete false) M state frame store)
    (literal : Literal site P o head tail resultName finalJoin J)
    (done : lowerFields host builder resultName type finalJoin fields M = .ok () N)
    (closed : Embeds (((N.bump.push (.structFinish (N.nextValue : Int) builder type)).push
      (.store resultName (N.nextValue : Int) type)).close (.jump finalJoin)) site.final)
    (part : Embeds (J.bump.push (.load (J.nextValue : Int) resultName type)) site.final) :
    Leads site.next
      (HasValue site P o (head :: tail) (J.nextValue : Int)
        (J.bump.push (.load (J.nextValue : Int) resultName type)))
      (Exits site o tail) (site.here M frame store)
      (loweredFields context m declaration required concrete fields collected state) := by
  induction fields generalizing collected M state frame store with
  | nil =>
    obtain ⟨-, rfl⟩ := pure_ok.mp done
    rw [loweredFields, ← exec_bind]
    refine here.finished literal (fun target builder => .structFinish target builder type)
      closed part ?_
    intro address value s' register found ran
    cases ordered : finishFields declaration required collected with
    | error fault =>
      rw [ordered] at ran
      cases ran
    | ok ordered' =>
      rw [ordered] at ran
      obtain ⟨rfl, rfl⟩ := Outcome.ok.inj ran
      refine ⟨.structBuilder declaration required collected concrete true, rfl, fun fuel => ?_⟩
      simp [executeInstruction, Frame.assign, read_known register, structFinish,
        withStructBuilder, objectOf, found, update, ordered, Koschei.lift, onHost,
        hosts.runtime, here.here.linked.host, bind_apply, andThen]
  | cons entry fields ih =>
    obtain ⟨name, value⟩ := entry
    simp only [declaredFields, forall_mem_append] at declared
    have first := parts value declared.1
    have others : ∀ name ∈ declaredFields fields, P name := declared.2
    obtain ⟨_, A, lowered, done⟩ := bind_ok.mp done
    have grown : Regular P M A := LowersPart.field first.lowers _ _ _ _ _ _ _ _ lowered
      here.here.ready
    have grownN : Regular P A N := lowersFields host generated _ _ _ _ fields others _ _ _ done
      (grown.ready here.here.ready)
    have partN := (((closed.before_close (by simpa using grownN.free)).before_push
      (by simpa using grownN.free)).before_push (by simpa using grownN.free)).before_bump
    refine here.field hosts literal first lowered (grownN.toEmbeds.trans partN) ?_ ?_
    · intro value state' frame' store' arrived bound
      exact arrived.loadResult ⟨value, true⟩ part bound
    · intro fields' state' frame' store' there
      exact ih others there done

theorem SimExpr.structOf {fields : List (String × Expr)}
    (declared : ∀ name ∈ declaredFields fields, P name) (typeName : String)
    (required : List String) (type : TypeNode) :
    SimExpr site P (lowerStruct typeName required (fun builder resultName finalJoin =>
        lowerFields host builder resultName type finalJoin fields) type)
      (loweredStruct context m typeName fields required type) := by
  refine SimExpr.built generated (builderContract context.runtime typeName required type)
    (fun contract => .structBuilder contract.1 required [] contract.2 false)
    (fun contract => loweredFields context m contract.1 required contract.2 fields [])
    (fun builder resultName finalJoin => lowersFields host generated _ _ _ _ fields declared)
    (fun frame target fuel => ?_) ?_
  · rw [← hosts.runtime]
    rfl
  intro o head tail builder resultName finalJoin J C F contract state frame store literal done
    closed part here
  exact here.fields hosts generated parts fields declared literal done closed part

end Literals

end Koschei.Lowering
