import Koschei.Lowering.Statements

/-!
# Matches

The arms of a match are tried one after the other by their canonical variants.
The arm that is taken binds its payload in a scope of its own, and the value of
its body becomes the result of the match.
-/

namespace Koschei.Lowering

open Lib Ast Mir Filter Relation

variable {σ : Type} {site : Site σ} {P : String → Prop} {o : Origin σ} {tail : Scoping}
  {head : List (String × String)} {L M N : Lowerer} {state : State σ} {frame : Frame}
  {store : Store σ} {arrives : Value → State σ → Config σ → Prop}

def lowerBody (host : Host) (type : TypeNode) : Arm → Lower (Option ValueId)
  | .expression _ _ _ body => present (lowerExpr host body)
  | .block _ _ _ body => inScope (lowerTail host body (some type))

theorem lowerArms_cons (host : Host) (scrutinee : ValueId) (resultName : String)
    (type : TypeNode) (joinBlock : Nat) (arm : Arm) (arms : List Arm) :
    lowerArms host scrutinee resultName type joinBlock (arm :: arms) = (do
      lowerArm scrutinee resultName type joinBlock arm.canonical arm.binding
        (lowerBody host type arm)
      lowerArms host scrutinee resultName type joinBlock arms) := by
  cases arm with
  | expression => simp only [lowerArms]; rfl
  | block => simp only [lowerArms]; rfl

/-- What an arm binds: nothing, or the payload of its variant. -/
def Carries (value : Value) (canonical : String) (binding : Option (String × TypeNode))
    (payload : Option Value) : Prop :=
  match binding with
  | none => payload = none
  | some _ => ∃ carried, payload = some carried ∧ variantPayload value canonical = .ok carried

variable {value : Value}

theorem loweredArm_true {arm : Arm} (arms : List Arm)
    (tested : variantIs value arm.canonical = .ok true) :
    (∃ fault, loweredArm value (arm :: arms) = .error fault) ∨
      ∃ payload, loweredArm value (arm :: arms) = .ok (arm, payload) ∧
        Carries value arm.canonical arm.binding payload := by
  simp only [loweredArm, tested, Carries]
  cases arm.binding with
  | none => exact .inr ⟨none, rfl, rfl⟩
  | some entry =>
    cases carried : variantPayload value arm.canonical with
    | error message => exact .inl ⟨_, rfl⟩
    | ok payload => exact .inr ⟨some payload, rfl, payload, rfl, rfl⟩

variable {binding : Option (String × TypeNode)} {scrutinee : ValueId} {x : Eval σ Value}

theorem At.takePayload (generated : ∀ name, Generated name → P name)
    (here : At site P o (head :: tail) M state frame store)
    {canonical : String} (declared : ∀ entry ∈ binding, P entry.1) {payload : Option Value}
    (known : frame.values scrutinee = some value)
    (carries : Carries value canonical binding payload) {u : Unit}
    (done : lowerPayload scrutinee canonical binding M = .ok u N) (embeds : Embeds N site.final)
    (rest : ∀ head' state' frame', At site P o (head' :: tail) N state' frame' store →
      Goes site o tail arrives N frame' store (x state')) :
    Goes site o tail arrives M frame store ((do
        Ast.bindPayload binding payload
        x) state) := by
  cases binding with
  | none =>
    obtain ⟨-, rfl⟩ := pure_ok.mp done
    exact rest head state frame here
  | some entry =>
    obtain ⟨carried, rfl, taken⟩ := carries
    simp only [lowerPayload, emitValue_then] at done
    obtain ⟨-, done⟩ := done
    obtain ⟨internal, A, named, done⟩ := bind_ok.mp done
    obtain ⟨free, rfl⟩ := emit_ok.mp done
    have pushed : Embeds (M.bump.push
        (.variantPayload (M.nextValue : Int) scrutinee canonical entry.2)) site.final := by
      obtain ⟨-, -, number, rfl⟩ := newBindingName_ok named
      exact (embeds.before_push free).before rfl rfl (by simp)
    have executes (fuel : Nat) : executeInstruction site.machine (site.calls fuel)
        site.moduleKey frame
        (.variantPayload (M.nextValue : Int) scrutinee canonical entry.2) store =
          .ok (frame.set (M.nextValue : Int) carried) store := by
      simp [executeInstruction, Frame.assign, read_known known, failClosed, taken,
        Comp.pure_bind, andThen]
    obtain ⟨stepped, there⟩ := here.emitPure
      (i := fun target => .variantPayload target scrutinee canonical entry.2) pushed executes
    obtain ⟨stepped', defined⟩ := there.define generated (declared entry rfl) named embeds
      (by simp [Frame.set] : _ = some carried)
    exact .after (.head stepped (.single stepped')) (rest _ _ _ ((here.trans there).trans defined))

/-- The arm that is taken: its payload is bound, its body runs in a scope of its own, and its
value is bound as the result. -/
theorem At.arm (generated : ∀ name, Generated name → P name)
    (here : At site P o (head :: tail) M state frame store) {scrutinee : ValueId}
    {resultName canonical : String} {type : TypeNode} {joinBlock : Nat}
    (declared : ∀ entry ∈ binding, P entry.1)
    {body : Lower (Option ValueId)} {y : Eval σ Value} (part : SimBranch site P body y)
    {payload : Option Value} (known : frame.values scrutinee = some value)
    (carries : Carries value canonical binding payload) {u : Unit}
    (done : inScope (lowerArmBody scrutinee resultName type joinBlock canonical binding body) M =
      .ok u N) (embeds : Embeds N site.final) (start : Ready o.lowerer)
    (cut : (head :: tail).flatten = o.lowerer.scopes.flatten)
    (fresh : resultName ∉ o.lowerer.used) (used : resultName ∈ M.used) {J K : Lowerer}
    (toJoin : Begins P o.lowerer K J joinBlock) (join : Embeds J site.final)
    (rest : ∀ value state' frame' store', At site P o (head :: tail) J state' frame' store' →
      frame'.bindings resultName = some ⟨value, false⟩ →
      Goes site o tail arrives J frame' store' (.ok value state')) :
    Goes site o tail arrives M frame store (Ast.inScope (do
        Ast.bindPayload binding payload
        y) state) := by
  obtain ⟨N, lowered, rfl⟩ := inScope_ok.mp done
  obtain ⟨_, A, taken, lowered⟩ := bind_ok.mp lowered
  obtain ⟨result, C, bodyLowered, lowered⟩ := bind_ok.mp lowered
  simp only [withState_apply] at lowered
  have partN : Embeds N site.final := embeds.before rfl rfl (Subset.refl _)
  obtain ⟨first, free⟩ := LowersStmt.payload generated scrutinee canonical declared taken
    here.ready.enter
  have second := part.lowers _ _ _ bodyLowered (first.ready here.ready.enter free)
  split at lowered
  · cases lowered
  rename_i goesOn
  have joining := bindAndJoin_within (P := P) second.1.inside lowered
  have partC := joining.toEmbeds.trans partN
  have inside : At site P ⟨{ M with scopes := [] :: M.scopes }, frame, store⟩
      ([] :: head :: tail) { M with scopes := [] :: M.scopes }
      { state with scopes := [] :: state.scopes } frame store :=
    .refl here.ready.enter (by simpa using here.cut) here.linked.enter
  have ran : Leads site.next
      (fun value state' c => ∃ id inner frame' store', result = some id ∧
        c = site.here C frame' store' ∧
        At site P ⟨{ M with scopes := [] :: M.scopes }, frame, store⟩ (inner :: head :: tail) C
          state' frame' store' ∧ frame'.values id = some value)
      (Exits site ⟨{ M with scopes := [] :: M.scopes }, frame, store⟩ (head :: tail))
      (site.here M frame store)
      ((do
        Ast.bindPayload binding payload
        y) { state with scopes := [] :: state.scopes }) := by
    refine inside.takePayload generated declared known carries taken
      (second.1.toEmbeds.trans partC) ?_
    intro inner state' frame' bound
    refine bound.branch part bodyLowered partC ?_
    intro id value state'' frame'' store'' isId ended _ known'
    exact .here ⟨id, inner, frame'', store'', isId, rfl, ended, known'⟩
  -- The value is bound where the scope has been left.
  have left : Leads site.next
      (fun value state' c => ∃ id frame' store', result = some id ∧ c = site.here C frame' store' ∧
        At site P ⟨M, frame, store⟩ (head :: tail) { C with scopes := C.scopes.tail } state' frame'
          store' ∧ frame'.values id = some value)
      (Exits site ⟨M, frame, store⟩ tail) (site.here M frame store)
      (Ast.inScope (do
        Ast.bindPayload binding payload
        y) state) := by
    refine ran.finallyDo ?_ fun signal state' c exit => exit.leave
    rintro value state' c ⟨id, inner, frame', store', isId, rfl, ended, known'⟩
    exact ⟨id, frame', store', isId, rfl, ended.leave here.ready here.cut, known'⟩
  refine left.extend ?_ fun signal state' c exit => here.exits exit
  rintro result' state' c ⟨id, frame', store', rfl, rfl, ended, known'⟩
  have outside := here.trans ended
  have usedC : resultName ∈ C.used := ended.grown.used used
  rcases unlessTerminated_ok.mp lowered with ⟨closed, -⟩ | ⟨-, lowered⟩
  · have free : C.terminated = false := ended.ready.free
    rw [free] at closed
    cases closed
  simp only [emit_then, jumpTo, terminate_ok] at lowered
  obtain ⟨-, free', rfl⟩ := lowered
  have closed : Embeds (({ C with scopes := C.scopes.tail }.push
      (.bind resultName id false type)).close (.jump joinBlock)) site.final := embeds
  obtain ⟨stepped, bound⟩ := outside.bindHidden start cut (closed.before_close free') known'
    fresh usedC
  refine .after (.single stepped) ?_
  exact bound.jump start cut closed toJoin join fun arrived =>
    rest _ _ _ _ arrived (by simp [Frame.bind])

theorem declaredArms_cons (arm : Arm) (arms : List Arm) :
    declaredArms (arm :: arms) = declaredArms [arm] ++ declaredArms arms := by
  cases arm with
  | expression => simp only [declaredArms, append_nil]
  | block => simp only [declaredArms, append_nil]

theorem binding_declared {arm : Arm} {entry : String × TypeNode} (inside : entry ∈ arm.binding) :
    entry.1 ∈ declaredArms [arm] := by
  cases arm with
  | expression variant canonical binding body =>
    obtain rfl : binding = some entry := inside
    simp [declaredArms]
  | block variant canonical binding body =>
    obtain rfl : binding = some entry := inside
    simp [declaredArms]

section Arms

variable (host : Host) (generated : ∀ name, Generated name → P name) {m : Meaning σ}
  (bodies : ∀ (arm : Arm) (type : TypeNode), (∀ name ∈ declaredArms [arm], P name) →
    SimBranch site P (lowerBody host type arm) (armValue m arm))

include generated bodies

/-- The arms from one on: the first that has the variant is taken. -/
theorem At.arms (arms : List Arm) (declared : ∀ name ∈ declaredArms arms, P name)
    (here : At site P o (head :: tail) M state frame store)
    {resultName : String} {type : TypeNode} {joinBlock : Nat} {value : Value}
    (known : frame.values scrutinee = some value) (low : scrutinee < (M.nextValue : Int))
    (done : lowerArms host scrutinee resultName type joinBlock arms M = .ok () N)
    (embeds : Embeds N site.final) (start : Ready o.lowerer)
    (cut : (head :: tail).flatten = o.lowerer.scopes.flatten)
    (fresh : resultName ∉ o.lowerer.used) (used : resultName ∈ M.used) {J K : Lowerer}
    (toJoin : Begins P o.lowerer K J joinBlock) (join : Embeds J site.final)
    (rest : ∀ value state' frame' store', At site P o (head :: tail) J state' frame' store' →
      frame'.bindings resultName = some ⟨value, false⟩ →
      Goes site o tail arrives J frame' store' (.ok value state')) :
    Goes site o tail arrives M frame store ((do
        let (arm, payload) ← exec (lift (loweredArm value arms))
        armBody m arm payload) state) := by
  induction arms generalizing M state frame store with
  | nil => exact .leave trivial
  | cons arm arms ih =>
    rw [declaredArms_cons] at declared
    have first : ∀ name ∈ declaredArms [arm], P name := (forall_mem_append.mp declared).1
    have others : ∀ name ∈ declaredArms arms, P name := (forall_mem_append.mp declared).2
    have bound : ∀ entry ∈ arm.binding, P entry.1 := fun entry inside =>
      first _ (binding_declared inside)
    have body := bodies arm type first
    rw [lowerArms_cons] at done
    obtain ⟨_, A, lowered, done⟩ := bind_ok.mp done
    obtain ⟨layout⟩ := lowerArm_layout generated body.lowers bound lowered here.ready
    have grown := layout.toMiss.regular
    have grownN := lowersArms host generated _ _ _ _ arms others _ _ _ done (grown.ready here.ready)
    have partA := grownN.toEmbeds.trans embeds
    have partB' := layout.toMiss.before partA
    have partB := layout.grown.toEmbeds.trans partB'
    have closed := layout.toArm.closed partB
    have free := layout.toArm.free
    rw [layout.tested] at closed free
    cases tested : variantIs value arm.canonical with
    | error message =>
      simp only [loweredArm, tested]
      exact .leave trivial
    | ok isVariant =>
      have executes (fuel : Nat) : executeInstruction site.machine (site.calls fuel)
          site.moduleKey frame
          (.variantIs (M.nextValue : Int) scrutinee arm.canonical .bool) store =
            .ok (frame.set (M.nextValue : Int) (.bool isVariant)) store := by
        simp [executeInstruction, Frame.assign, read_known known, failClosed, tested,
          Comp.pure_bind, andThen]
      obtain ⟨steps, atTest⟩ := here.test
        (i := fun target => .variantIs target scrutinee arm.canonical .bool) executes closed
        free (layout.toArm.made partB) (layout.toMiss.made partA)
      refine .after steps ?_
      have known₁ := atTest.value known low
      cases isVariant with
      | false =>
        simp only [loweredArm, tested]
        refine atTest.enter here.ready here.cut layout.toMiss fun missed => ?_
        exact ih others (here.trans missed) (missed.value known low)
          (low.trans_le (Int.ofNat_le.mpr grown.values)) done (grown.used used)
      | true =>
        rcases loweredArm_true arms tested with ⟨fault, failed⟩ | ⟨payload, taken, carries⟩
        · rw [failed]
          exact .leave trivial
        · rw [taken]
          refine atTest.enter here.ready here.cut layout.toArm.begins fun entered => ?_
          exact (here.trans entered).arm generated bound body known₁ carries layout.lowered
            partB' start cut fresh (layout.toArm.regular.used used) toJoin join rest

theorem SimExpr.matchOf {value : Lower ValueId} (first : SimExpr site P value x)
    {arms : List Arm} (declared : ∀ name ∈ declaredArms arms, P name) (type : TypeNode) :
    SimExpr site P (lowerMatch value (fun scrutinee resultName joinBlock =>
        lowerArms host scrutinee resultName type joinBlock arms) type)
      (do
        let scrutinee ← x
        let (arm, payload) ← exec (lift (loweredArm scrutinee arms))
        armBody m arm payload) where
  lowers := .matchOn generated first.lowers
    (fun scrutinee resultName joinBlock => lowersArms host generated _ _ _ _ arms declared) type
  runs := by
    intro L id L' done ready part head tail state frame store cut linked
    obtain ⟨resultName, J, rfl, rfl, ⟨layout⟩⟩ := lowerMatch_layout generated first.lowers
      (fun scrutinee resultName joinBlock => lowersArms host generated _ _ _ _ arms declared) done
      ready
    have partJ := (part.before_push layout.toJoin.regular.free).before_bump
    have partF := layout.toJoin.before partJ
    have partC := layout.armsGrown.toEmbeds.trans partF
    have isC := layout.reserved
    have partA : Embeds layout.A site.final := by
      rw [isC] at partC
      exact partC.before_reserve.before_take
    have fresh : resultName ∉ L.used := fun old => layout.fresh (layout.grown.used old)
    refine (At.refl ready cut linked).expr first layout.lowered partA ?_
    intro value state' frame' store' there _ known
    have atArms := there.move (N := layout.C) (layout.reservedGrown.orderly ready)
      (layout.reservedGrown.ready ready) (by rw [isC]; simp)
    have same : site.here layout.A frame' store' = site.here layout.C frame' store' := by
      rw [isC, Site.here_reserve (L := layout.A.take resultName layout.number) layout.grown.inside]
      rfl
    rw [Goes, same]
    refine atArms.arms host generated bodies arms declared known ?_ layout.armsLowered partF ready
      cut fresh (by rw [isC]; simp) layout.toJoin.begins partJ ?_
    · rw [isC]
      simpa using layout.bound
    · intro value state' frame' store' arrived bound
      exact arrived.loadResult ⟨value, false⟩ part bound

end Arms

end Koschei.Lowering
