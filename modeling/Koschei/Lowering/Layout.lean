import Koschei.Lowering.Growth

/-!
# How each form is laid out

One lemma for each form of the language: if its parts grow the function
regularly, so does the form. A form that branches has a layout besides: the
blocks it reserves, the state in which each of them is begun, the terminator of
the block before, and the parts that are lowered in between. A run of the
finished function goes through the same blocks, in another order.
-/

namespace Koschei.Lowering

open Lib Ast Mir
open Lowerer (bump_nextBlock push_nextBlock reserve_nextBlock reserve_reserve take_nextBlock)

/-! ## Generated names -/

/-- A name with the character that no source name has. -/
def Generated (name : String) : Prop := '$' ∈ name.toList

theorem generated_internalName (purpose : String) (number : Nat) :
    Generated (internalName purpose number) := by
  simp [Generated, internalName]

theorem generated_renamed (sourceName : String) (number : Nat) :
    Generated (renamed sourceName number) := by
  simp [Generated, renamed]

/-! ## States in the middle of a form -/

variable {P : String → Prop} {L M N : Lowerer} {action : Lower Unit} {u : Unit}

theorem unlessTerminated_ok : unlessTerminated action L = .ok u M ↔
      (L.terminated = true ∧ M = L) ∨ (L.terminated = false ∧ action L = .ok u M) := by
  simp only [unlessTerminated, withState_apply]
  cases L.terminated with
  | true => simp [eq_comm]
  | false => simp

variable {α : Type} {a : α}

theorem inScope_ok {body : Lower α} : inScope body L = .ok a M ↔
      ∃ N, body { L with scopes := [] :: L.scopes } = .ok a N ∧
        M = { N with scopes := N.scopes.tail } := by
  simp only [inScope, bind_ok, modify_ok, pure_ok]
  constructor
  · rintro ⟨_, _, rfl, _, N, done, _, _, rfl, rfl, rfl⟩
    exact ⟨N, done, rfl⟩
  · rintro ⟨N, done, rfl⟩
    exact ⟨(), _, rfl, a, N, done, (), _, rfl, rfl, rfl⟩

theorem inLoop_ok {body : Lower α} {breakTarget continueTarget : Nat} :
    inLoop breakTarget continueTarget body L = .ok a M ↔ ∃ N, body { L with
          loopTargets := (breakTarget, continueTarget) :: L.loopTargets } = .ok a N ∧
        M = { N with loopTargets := N.loopTargets.tail } := by
  simp only [inLoop, bind_ok, modify_ok, pure_ok]
  constructor
  · rintro ⟨_, _, rfl, _, N, done, _, _, rfl, rfl, rfl⟩
    exact ⟨N, done, rfl⟩
  · rintro ⟨N, done, rfl⟩
    exact ⟨(), _, rfl, a, N, done, (), _, rfl, rfl, rfl⟩

/-- The lowerer after a test for an Error and the blocks that are made for it. -/
def Lowerer.test (L : Lowerer) (id : ValueId) (count : Nat) : Lowerer :=
  (L.bump.push (.isRuntimeError (L.nextValue : Int) id .bool)).reserve count

/-- A form that started at `L` begins a block it has reserved. -/
structure Begins (P : String → Prop) (L M N : Lowerer) (block : Nat) : Prop where
  eq : N = M.goto block
  blank : Blank M block
  regular : Regular P L N

/-- The same, after it has terminated the block in which it stood. -/
structure Turns (P : String → Prop) (L M : Lowerer) (t : Terminator) (N : Lowerer)
    (block : Nat) : Prop where
  free : M.terminated = false
  begins : Begins P L (M.close t) N block

variable {f : Unit → Lower α}

theorem turn_inv {t : Terminator} {block : Nat}
    (done : (terminate t >>= fun _ => setCurrent block >>= f) L = .ok a M) :
    L.terminated = false ∧ ∃ N, N = L.turn t block ∧ f () N = .ok a M := by
  obtain ⟨free, done⟩ := turn_then.mp done
  exact ⟨free, _, rfl, done⟩

theorem goto_inv {block : Nat} (done : (setCurrent block >>= f) L = .ok a M) :
    ∃ N, N = L.goto block ∧ f () N = .ok a M :=
  ⟨_, rfl, setCurrent_then.mp done⟩

theorem Within.begins (grown : Within P L M) {block : Nat} (eq : N = M.goto block)
    (blank : Blank M block) (new : L.nextBlock ≤ block) : Begins P L M N block :=
  ⟨eq, blank, eq ▸ grown.goto blank new⟩

theorem Within.turns (grown : Within P L M) (free : M.terminated = false) {t : Terminator}
    {block : Nat} (eq : N = M.turn t block) (blank : Blank M block)
    (new : L.nextBlock ≤ block) : Turns P L M t N block :=
  ⟨free, eq, blank.close t, eq ▸ grown.turn free t blank new⟩

theorem Turns.regular {t : Terminator} {block : Nat} (turns : Turns P L M t N block) :
    Regular P L N := turns.begins.regular

theorem Begins.used {block : Nat} (begins : Begins P L M N block) : N.used = M.used := by
  rw [begins.eq]
  rfl

theorem Turns.used {t : Terminator} {block : Nat} (turns : Turns P L M t N block) :
    N.used = M.used := turns.begins.used

section Finished

variable {F : Lowerer} {t : Terminator} {block : Nat}

/-- What has the state in which a block is begun has the state before. -/
theorem Begins.before (begins : Begins P L M N block) (part : Embeds N F) : Embeds M F :=
  (begins.eq ▸ part).before_goto

theorem Begins.made (begins : Begins P L M N block) (part : Embeds N F) : block < F.nextBlock :=
  begins.blank.made.trans_le (begins.before part).blocks

theorem Turns.closed (turns : Turns P L M t N block) (part : Embeds N F) : Embeds (M.close t) F :=
  turns.begins.before part

theorem Turns.before (turns : Turns P L M t N block) (part : Embeds N F) : Embeds M F :=
  (turns.closed part).before_close turns.free

theorem Turns.made (turns : Turns P L M t N block) (part : Embeds N F) : block < F.nextBlock :=
  turns.begins.made part

end Finished

/-- Another reserved block is still blank. -/
theorem Begins.others {block other : Nat} (begins : Begins P L M N block)
    (blank : Blank M other) (differs : other ≠ block) : Blank N other := by
  rw [begins.eq]
  exact blank.goto differs

theorem Turns.others {t : Terminator} {block other : Nat} (turns : Turns P L M t N block)
    (blank : Blank M other) (differs : other ≠ block) : Blank N other :=
  turns.begins.others (blank.close t) differs

/-- Of the blocks that were reserved from `base` on, those from `low` on are still blank. -/
def Pending (L : Lowerer) (base low high : Nat) : Prop :=
  ∀ index, low ≤ index → index < high → Blank L (base + index)

namespace Pending

variable {base low high : Nat}

theorem reserve (inside : L.current < L.nextBlock) (count : Nat) :
    Pending (L.reserve count) L.nextBlock 0 count := fun _ _ small => .reserve inside small

section

variable (pending : Pending M base low high)

include pending

theorem imp (keeps : ∀ block, Blank M block → Blank N block) :
    Pending N base low high := fun index above small => keeps _ (pending index above small)

theorem grown (shape : Shape P M N) :
    Pending N base low high := pending.imp fun _ blank => blank.grown shape

/-- The first of them is begun. -/
theorem begins (small : low < high) (grown : Within P L M)
    (eq : N = M.goto (base + low)) (old : L.nextBlock ≤ base) :
    Begins P L M N (base + low) ∧ Pending N base (low + 1) high := by
  have begins := grown.begins eq (pending low le_rfl small) (old.trans (Nat.le_add_right _ _))
  exact ⟨begins, fun index above below => begins.others (pending index (by omega) below) (by omega)⟩

theorem turns (small : low < high) (grown : Within P L M)
    (free : M.terminated = false) {t : Terminator} (eq : N = M.turn t (base + low))
    (old : L.nextBlock ≤ base) : Turns P L M t N (base + low) ∧ Pending N base (low + 1) high := by
  have closed : Pending (M.close t) base low high := pending.imp fun _ blank => blank.close t
  obtain ⟨begins, rest⟩ := closed.begins small (grown.close free t) eq old
  exact ⟨⟨free, begins⟩, rest⟩

end

end Pending

theorem Ready.enter (ready : Ready L) : Ready { L with scopes := [] :: L.scopes } where
  free := ready.free
  inside := ready.inside
  lexical := ⟨by simp, by simpa [visible] using ready.lexical.nodup,
    by simpa [visible] using ready.lexical.used⟩

/-- Leaving a scope takes back what was added to it. -/
theorem Orderly.leave (grown : Orderly P { L with scopes := [] :: L.scopes } N) :
    Shape P L { N with scopes := N.scopes.tail } ∧ N.scopes.tail = L.scopes ∧
      N.loopTargets = L.loopTargets := by
  refine ⟨?_, grown.scoping.tail, grown.loops⟩
  have shape : Shape P L N :=
    ⟨⟨grown.blocks, grown.used, grown.instructions, grown.terminated⟩, grown.kept,
      grown.current, grown.inside, grown.values, grown.names⟩
  exact shape.congr rfl rfl rfl le_rfl rfl

theorem LowersStmt.inScope {body : Lower Unit} (lowers : LowersStmt P body) :
    LowersBlock P (inScope body) := by
  intro L u L' done ready
  obtain ⟨N, lowered, rfl⟩ := inScope_ok.mp done
  obtain ⟨shape, scopes, loops⟩ := (lowers _ _ _ lowered ready.enter).leave
  exact ⟨shape, scopes, loops⟩

variable {body : Lower (Option ValueId)}

theorem LowersTail.inScope (lowers : LowersTail P body) : LowersBranch P (inScope body) := by
  intro L result L' done ready
  obtain ⟨N, lowered, rfl⟩ := inScope_ok.mp done
  obtain ⟨grown, bound⟩ := lowers _ _ _ lowered ready.enter
  obtain ⟨shape, scopes, loops⟩ := grown.leave
  exact ⟨⟨shape, scopes, loops⟩, bound⟩

theorem LowersExpr.present {action : Lower ValueId} (lowers : LowersExpr P action) :
    LowersBranch P (present action) := by
  intro L result L' done ready
  obtain ⟨id, M, lowered, done⟩ := bind_ok.mp done
  obtain ⟨rfl, rfl⟩ := pure_ok.mp done
  obtain ⟨grown, bound⟩ := lowers _ _ _ lowered ready
  refine ⟨grown.within, ?_⟩
  rintro _ ⟨rfl⟩
  exact ⟨grown.free, bound⟩

/-! ## Straight-line forms -/

theorem LowersExpr.emitValue (instruction : ValueId → Instruction) :
    LowersExpr P (emitValue instruction) := by
  intro L id L' done ready
  obtain ⟨rfl, -, rfl⟩ := emitValue_ok.mp done
  exact ⟨(Regular.refl ready).emitValue _, by simp⟩

theorem LowersExpr.unary {operand : Lower ValueId} (lowers : LowersExpr P operand)
    (instruction : ValueId → ValueId → Instruction) :
    LowersExpr P (do
      let value ← operand
      Lowering.emitValue fun target => instruction target value) := by
  intro L id L' done ready
  obtain ⟨value, M, lowered, done⟩ := bind_ok.mp done
  obtain ⟨rfl, -, rfl⟩ := emitValue_ok.mp done
  obtain ⟨grown, -⟩ := lowers _ _ _ lowered ready
  exact ⟨grown.emitValue _, by simp⟩

variable {object : Lower ValueId}

theorem LowersExpr.member (lowers : LowersExpr P object)
    (name : String) (type : TypeNode) : LowersExpr P (lowerMember object name type) :=
  lowers.unary _

theorem LowersExpr.ident (host : Host) (name : String) (type : TypeNode) :
    LowersExpr P (lowerIdent host name type) := by
  unfold lowerIdent
  split
  · exact .emitValue _
  · intro L id L' done ready
    exact LowersExpr.emitValue _ L id L' done ready

theorem LowersExpr.binary {left right : Lower ValueId} (first : LowersExpr P left)
    (second : LowersExpr P right) (operator : BinaryOperator) (type : TypeNode) :
    LowersExpr P (lowerBinary operator left right type) := by
  intro L id L' done ready
  obtain ⟨leftValue, M, lowered, done⟩ := bind_ok.mp done
  obtain ⟨grown, -⟩ := first _ _ _ lowered ready
  obtain ⟨grown', bound⟩ := second.unary (fun target value =>
    .binary target operator leftValue value type) _ _ _ done (grown.ready ready)
  exact ⟨grown.trans grown', bound⟩

theorem LowersAll.combine {items : Lower (List ValueId)} (lowers : LowersAll P items)
    (instruction : ValueId → List ValueId → Instruction) :
    LowersExpr P (do
      let values ← items
      Lowering.emitValue fun target => instruction target values) := by
  intro L id L' done ready
  obtain ⟨values, M, lowered, done⟩ := bind_ok.mp done
  obtain ⟨rfl, -, rfl⟩ := emitValue_ok.mp done
  obtain ⟨grown, -⟩ := lowers _ _ _ lowered ready
  exact ⟨grown.emitValue _, by simp⟩

variable {arguments : Lower (List ValueId)}

theorem LowersExpr.apply {callee : Lower ValueId}
    (first : LowersExpr P callee) (rest : LowersAll P arguments)
    (instruction : ValueId → ValueId → List ValueId → Instruction) :
    LowersExpr P (do
      let function ← callee
      let values ← arguments
      Lowering.emitValue fun target => instruction target function values) := by
  intro L id L' done ready
  obtain ⟨function, M, lowered, done⟩ := bind_ok.mp done
  obtain ⟨grown, -⟩ := first _ _ _ lowered ready
  obtain ⟨grown', bound⟩ := rest.combine (fun target values =>
    instruction target function values) _ _ _ done (grown.ready ready)
  exact ⟨grown.trans grown', bound⟩

theorem LowersExpr.mapMethod
    (first : LowersExpr P object) (rest : LowersAll P arguments) (method : String)
    (type : TypeNode) : LowersExpr P (lowerMapMethod object arguments method type) := by
  intro L id L' done ready
  simp only [lowerMapMethod, emitMapMethod, bind_ok, newValue_ok] at done
  obtain ⟨receiver, M, lowered, values, N, lowered', _, _, ⟨rfl, rfl⟩, done⟩ := done
  obtain ⟨grown, -⟩ := first _ _ _ lowered ready
  obtain ⟨grown', -⟩ := rest _ _ _ lowered' (grown.ready ready)
  cases found : mapMethodInstruction method receiver values type with
  | none =>
    rw [found] at done
    cases done
  | some instruction =>
    simp only [found, bind_ok, emit_ok, pure_ok] at done
    obtain ⟨_, _, ⟨-, rfl⟩, rfl, rfl⟩ := done
    exact ⟨(grown.trans grown').emitValue _, by simp⟩

/-- The arity checks of a constructor call change nothing. -/
theorem constructorArity_ok {name : String} {count : Nat}
    (admitted : constructorArity name count L = .ok u M) : M = L := by
  unfold constructorArity at admitted
  cases known : builtinVariantArity name with
  | none =>
    simp only [known] at admitted
    by_cases many : count > 1
    · simp [many, reject] at admitted
    · simpa [many, eq_comm] using admitted
  | some expected =>
    simp only [known] at admitted
    by_cases differs : count = expected
    · simpa [differs, eq_comm] using admitted
    · simp [differs, reject] at admitted

theorem LowersExpr.construct (host : Host)
    (rest : LowersAll P arguments) (name : String) (calleeType : TypeNode) (count : Nat)
    (type : TypeNode) :
    LowersExpr P (lowerConstruct host name calleeType count arguments type) := by
  intro L id L' done ready
  simp only [lowerConstruct, bind_ok] at done
  obtain ⟨_, M, admitted, sources, N, lowered, done⟩ := done
  obtain rfl := constructorArity_ok admitted
  obtain ⟨grown, -⟩ := rest _ _ _ lowered ready
  cases identity : constructIdentity type name with
  | some canonical =>
    rw [identity] at done
    obtain ⟨rfl, -, rfl⟩ := emitValue_ok.mp done
    exact ⟨grown.emitValue _, by simp⟩
  | none =>
    rw [identity] at done
    obtain ⟨grown', bound⟩ := LowersExpr.apply (.ident host name calleeType) rest
      (fun target function values => .call target function values type) _ _ _ done
      (grown.ready ready)
    exact ⟨grown.trans grown', bound⟩

variable {value : Lower ValueId}

theorem LowersExpr.assign (lowers : LowersExpr P value)
    (name : String) (type : TypeNode) : LowersExpr P (lowerAssign name value type) := by
  intro L id L' done ready
  simp only [lowerAssign, bind_ok, withState_apply, emit_ok, pure_ok] at done
  obtain ⟨source, M, lowered, _, _, ⟨-, rfl⟩, rfl, rfl⟩ := done
  obtain ⟨grown, bound⟩ := lowers _ _ _ lowered ready
  exact ⟨grown.push _, by simpa using bound⟩

theorem LowersExpr.assignField (host : Host)
    (lowers : LowersExpr P value) (object : String) (objectType : TypeNode) (field : String)
    (type : TypeNode) :
    LowersExpr P (lowerAssignField host object objectType field value type) := by
  intro L id L' done ready
  obtain ⟨receiver, M, lowered, done⟩ := bind_ok.mp done
  obtain ⟨grown, -⟩ := LowersExpr.ident host object objectType _ _ _ lowered ready
  obtain ⟨grown', bound⟩ := lowers.unary (fun target source =>
    .structFieldSet target receiver field source type) _ _ _ done (grown.ready ready)
  exact ⟨grown.trans grown', bound⟩

/-! ## Branching forms -/

section Branching

variable (generated : ∀ name, Generated name → P name)

include generated in
theorem internal_fits {purpose name : String} (taken : ∃ k, name = internalName purpose k) :
    P name := by
  obtain ⟨k, rfl⟩ := taken
  exact generated _ (generated_internalName purpose k)

/-- A value whose Error is stored as the result of the literal it belongs to. -/
structure StoreErrorLayout (P : String → Prop) (id : ValueId) (resultName : String)
    (type : TypeNode) (finalJoin : Nat) (L M : Lowerer) where
  E : Lowerer
  toError : Turns P L (L.test id 2)
    (.branch (L.nextValue : Int) L.nextBlock (L.nextBlock + 1 : Nat)) E L.nextBlock
  toNext : Turns P L (E.push (.store resultName id type)) (.jump finalJoin) M (L.nextBlock + 1)

variable {id : ValueId} {resultName : String} {type : TypeNode}

theorem storeErrorOrContinue_layout {finalJoin : Nat}
    (done : storeErrorOrContinue id resultName type finalJoin L = .ok u M) (ready : Ready L) :
    Nonempty (StoreErrorLayout P id resultName type finalJoin L M) := by
  simp only [storeErrorOrContinue, branchTo, emitValue_then, newBlock_then,
    reserve_reserve, reserve_nextBlock, push_nextBlock,
    bump_nextBlock, Nat.reduceAdd] at done
  obtain ⟨-, done⟩ := done
  obtain ⟨free, E, isE, done⟩ := turn_inv done
  obtain ⟨-, done⟩ := emit_then.mp done
  obtain ⟨free', last⟩ := turn_ok.mp done
  have tested := (Regular.refl (P := P) ready).emitValue
    (.isRuntimeError (L.nextValue : Int) id .bool)
  obtain ⟨toError, pending⟩ := (Pending.reserve tested.inside 2).turns (by decide)
    (tested.within.reserve 2) free isE (by simp)
  obtain ⟨toNext, -⟩ := (pending.imp fun _ blank => blank.push _).turns (by decide)
    (toError.regular.push (.store resultName id type)).within free' last (by simp)
  exact ⟨⟨E, toError, toNext⟩⟩

theorem LowersPart.storeErrorOrContinue (id : ValueId) (resultName : String)
    (type : TypeNode) (finalJoin : Nat) :
    LowersPart P (storeErrorOrContinue id resultName type finalJoin) := by
  intro L u L' done ready
  obtain ⟨layout⟩ := storeErrorOrContinue_layout (P := P) done ready
  exact layout.toNext.regular

/-- `&&` and `||`: the left operand is bound as the result, and the right one replaces it
unless the left one decides. -/
structure ShortCircuitLayout (P : String → Prop) (conjunction : Bool)
    (left right : Lower ValueId) (type : TypeNode) (resultName : String) (L J : Lowerer) where
  (leftId rightId : ValueId)
  number : Nat
  (A B D R R' S : Lowerer)
  leftLowered : left L = .ok leftId A
  leftGrown : Regular P L A
  leftBound : leftId < (A.nextValue : Int)
  fresh : resultName ∉ A.used
  fits : P resultName
  bound : B = (A.take resultName number).push (.bind resultName leftId true type)
  boundGrown : Regular P L B
  toDecision : Turns P L (B.test leftId 4)
    (.branch (B.nextValue : Int) (B.nextBlock + 3 : Nat) B.nextBlock) D B.nextBlock
  toRight : Turns P L D
    (.branch leftId (if conjunction then B.nextBlock + 1 else B.nextBlock + 2 : Nat)
      (if conjunction then B.nextBlock + 2 else B.nextBlock + 1 : Nat)) R (B.nextBlock + 1)
  rightLowered : right R = .ok rightId R'
  rightGrown : Regular P R R'
  rightBound : rightId < (R'.nextValue : Int)
  toSkip : Turns P L (R'.push (.store resultName rightId type))
    (.jump (B.nextBlock + 3 : Nat)) S (B.nextBlock + 2)
  toJoin : Turns P L S (.jump (B.nextBlock + 3 : Nat)) J (B.nextBlock + 3)

include generated in
theorem lowerShortCircuit_layout {conjunction : Bool} {left right : Lower ValueId}
    {type : TypeNode} {id : ValueId} (first : LowersExpr P left) (second : LowersExpr P right)
    (done : lowerShortCircuit conjunction left right type L = .ok id M) (ready : Ready L) :
    ∃ resultName J, id = (J.nextValue : Int) ∧
      M = J.bump.push (.load (J.nextValue : Int) resultName type) ∧
      Nonempty (ShortCircuitLayout P conjunction left right type resultName L J) := by
  obtain ⟨leftId, A, lowered, done⟩ := bind_ok.mp done
  obtain ⟨resultName, _, named, done⟩ := bind_ok.mp done
  obtain ⟨fresh, shape, number, rfl⟩ := newInternalName_ok named
  obtain ⟨-, done⟩ := emit_then.mp done
  obtain ⟨grown, bound⟩ := first _ _ _ lowered ready
  have old : L.nextBlock ≤ A.nextBlock := grown.blocks
  have boundGrown := (grown.take (internal_fits generated shape) number).push
    (.bind resultName leftId true type)
  obtain ⟨B, isB⟩ : ∃ B, B = (A.take resultName number).push (.bind resultName leftId true type) :=
    ⟨_, rfl⟩
  rw [← isB] at done boundGrown
  have oldB : L.nextBlock ≤ B.nextBlock := boundGrown.blocks
  simp only [branchTo, emitValue_then, newBlock_then, reserve_reserve,
    reserve_nextBlock, push_nextBlock, bump_nextBlock,
    Nat.reduceAdd] at done
  obtain ⟨-, done⟩ := done
  obtain ⟨free, D, isD, done⟩ := turn_inv done
  obtain ⟨free', R, isR, done⟩ := turn_inv done
  obtain ⟨rightId, R', lowered', done⟩ := bind_ok.mp done
  obtain ⟨-, done⟩ := emit_then.mp done
  obtain ⟨free'', S, isS, done⟩ := turn_inv done
  obtain ⟨free₃, J, isJ, done⟩ := turn_inv done
  obtain ⟨isId, -, last⟩ := emitValue_ok.mp done
  have tested := boundGrown.emitValue (.isRuntimeError (B.nextValue : Int) leftId .bool)
  obtain ⟨toDecision, pending⟩ := (Pending.reserve tested.inside 4).turns (by decide)
    (tested.within.reserve 4) free isD oldB
  obtain ⟨toRight, pending⟩ := pending.turns (by decide) toDecision.regular.within free' isR oldB
  obtain ⟨grown', bound'⟩ := second _ _ _ lowered' (toRight.regular.ready ready)
  have stored := (toRight.regular.trans grown').push (.store resultName rightId type)
  obtain ⟨toSkip, pending⟩ := ((pending.grown grown'.toShape).imp fun _ blank =>
    blank.push _).turns (by decide) stored.within free'' isS oldB
  obtain ⟨toJoin, -⟩ := pending.turns (by decide) toSkip.regular.within free₃ isJ oldB
  exact ⟨resultName, J, isId, last, ⟨⟨leftId, rightId, number, A, B, D, R, R', S, lowered, grown,
    bound, fresh, internal_fits generated shape, isB, boundGrown, toDecision, toRight, lowered', grown', bound', toSkip,
    toJoin⟩⟩⟩

include generated in
theorem LowersExpr.shortCircuit {left right : Lower ValueId} (first : LowersExpr P left)
    (second : LowersExpr P right) (conjunction : Bool) (type : TypeNode) :
    LowersExpr P (lowerShortCircuit conjunction left right type) := by
  intro L id L' done ready
  obtain ⟨resultName, J, rfl, rfl, ⟨layout⟩⟩ :=
    lowerShortCircuit_layout generated first second done ready
  exact ⟨layout.toJoin.regular.emitValue _, by simp⟩

/-! ### Map and struct literals -/

theorem LowersPart.andThen {first second : Lower Unit} (lowers : LowersPart P first)
    (lowers' : LowersPart P second) : LowersPart P (do first; second) := by
  intro L u L' done ready
  obtain ⟨_, M, lowered, done⟩ := bind_ok.mp done
  have grown := lowers _ _ _ lowered ready
  exact grown.trans (lowers' _ _ _ done (grown.ready ready))

theorem LowersPart.nothing : LowersPart P (pure ()) := by
  intro L u L' done ready
  obtain ⟨-, rfl⟩ := pure_ok.mp done
  exact .refl ready

theorem LowersExpr.checked (lowers : LowersExpr P value)
    (resultName : String) (type : TypeNode) (finalJoin : Nat) {next : ValueId → Lower Unit}
    (continues : ∀ id, LowersPart P (next id)) :
    LowersPart P (do
      let item ← value
      Lowering.storeErrorOrContinue item resultName type finalJoin
      next item) := by
  intro L u L' done ready
  obtain ⟨item, M, lowered, done⟩ := bind_ok.mp done
  obtain ⟨grown, -⟩ := lowers _ _ _ lowered ready
  exact grown.trans ((LowersPart.storeErrorOrContinue item resultName type finalJoin).andThen
    (continues item) _ _ _ done (grown.ready ready))

theorem LowersPart.emit (instruction : Instruction) : LowersPart P (emit instruction) := by
  intro L u L' done ready
  obtain ⟨-, rfl⟩ := emit_ok.mp done
  exact (Regular.refl ready).push _

theorem LowersPart.entry {key : Lower ValueId} (first : LowersExpr P key)
    (second : LowersExpr P value) (builder : ValueId) (resultName : String) (type : TypeNode)
    (finalJoin : Nat) : LowersPart P (lowerEntry key value builder resultName type finalJoin) :=
  first.checked resultName type finalJoin fun _ =>
    second.checked resultName type finalJoin fun _ => .emit _

theorem LowersPart.field (lowers : LowersExpr P value)
    (name : String) (builder : ValueId) (resultName : String) (type : TypeNode) (finalJoin : Nat) :
    LowersPart P (lowerField name value builder resultName type finalJoin) :=
  lowers.checked resultName type finalJoin fun _ => .emit _

/-- A literal that is built part by part. -/
structure BuilderLayout (P : String → Prop) (start : ValueId → Instruction)
    (finish : ValueId → ValueId → Instruction) (parts : ValueId → String → Nat → Lower Unit)
    (type : TypeNode) (resultName : String) (L J : Lowerer) where
  number : Nat
  (B C F : Lowerer)
  fresh : resultName ∉ L.used
  fits : P resultName
  bound : B = ((L.bump.push (start (L.nextValue : Int))).take resultName number).push
    (.bind resultName (L.nextValue : Int) true type)
  boundGrown : Regular P L B
  reserved : C = B.reserve 1
  reservedGrown : Regular P L C
  partsLowered : parts (L.nextValue : Int) resultName L.nextBlock C = .ok () F
  partsGrown : Regular P C F
  toJoin : Turns P L ((F.bump.push (finish (F.nextValue : Int) (L.nextValue : Int))).push
    (.store resultName (F.nextValue : Int) type)) (.jump L.nextBlock) J L.nextBlock

include generated in
theorem lowerBuilder_layout {purpose : String} {start : ValueId → Instruction}
    {finish : ValueId → ValueId → Instruction} {parts : ValueId → String → Nat → Lower Unit}
    {type : TypeNode} {id : ValueId}
    (lowers : ∀ id name join, LowersPart P (parts id name join))
    (done : lowerBuilder purpose start finish parts type L = .ok id M) (ready : Ready L) :
    ∃ resultName J, id = (J.nextValue : Int) ∧
      M = J.bump.push (.load (J.nextValue : Int) resultName type) ∧
      Nonempty (BuilderLayout P start finish parts type resultName L J) := by
  simp only [lowerBuilder, emitValue_then] at done
  obtain ⟨-, done⟩ := done
  obtain ⟨resultName, _, named, done⟩ := bind_ok.mp done
  obtain ⟨fresh, shape, number, rfl⟩ := newInternalName_ok named
  obtain ⟨-, done⟩ := emit_then.mp done
  simp only [newBlock_then, push_nextBlock, bump_nextBlock, take_nextBlock] at done
  obtain ⟨_, F, lowered, done⟩ := bind_ok.mp done
  simp only [emitValue_then, emit_then] at done
  obtain ⟨-, -, done⟩ := done
  obtain ⟨free, J, isJ, done⟩ := turn_inv done
  obtain ⟨isId, -, last⟩ := emitValue_ok.mp done
  have bound := (((Regular.refl (P := P) ready).emitValue (start (L.nextValue : Int))).take
    (internal_fits generated shape) number).push
    (.bind resultName (L.nextValue : Int) true type)
  have reserved := (bound.within.reserve 1).regular
    ((Lowerer.reserve_terminated _ bound.inside).trans bound.free)
  have grown := lowers _ _ _ _ _ _ lowered (reserved.ready ready)
  have toJoin := (((reserved.trans grown).emitValue
    (finish (F.nextValue : Int) (L.nextValue : Int))).push
    (.store resultName (F.nextValue : Int) type)).within.turns free isJ
    ((((Blank.reserve bound.inside (by decide : 0 < 1)).grown grown.toShape).bump.push _).push _)
    (by simp)
  exact ⟨resultName, J, isId, last, ⟨⟨number, _, _, F, fresh,
    internal_fits generated shape, rfl, bound, rfl, reserved, lowered, grown, toJoin⟩⟩⟩

include generated in
theorem LowersExpr.builder (purpose : String) (start : ValueId → Instruction)
    (finish : ValueId → ValueId → Instruction) {parts : ValueId → String → Nat → Lower Unit}
    (lowers : ∀ id name join, LowersPart P (parts id name join)) (type : TypeNode) :
    LowersExpr P (lowerBuilder purpose start finish parts type) := by
  intro L id L' done ready
  obtain ⟨resultName, J, rfl, rfl, ⟨layout⟩⟩ := lowerBuilder_layout generated lowers done ready
  exact ⟨layout.toJoin.regular.emitValue _, by simp⟩

/-! ### Fallible forms -/

theorem LowersExpr.fallible (lowers : LowersExpr P value)
    {L L' : Lowerer} {fallible : ValueId} {successBlock failureBlock joinBlock : Nat}
    (done : lowerFallible value L = .ok (fallible, successBlock, failureBlock, joinBlock) L')
    (ready : Ready L) :
    ∃ A M, value L = .ok fallible A ∧ Regular P L A ∧ fallible < (A.nextValue : Int) ∧
      M = A.bump.push (.fallibleIsSuccess (A.nextValue : Int) fallible .bool) ∧
      Regular P L M ∧ successBlock = A.nextBlock ∧ failureBlock = A.nextBlock + 1 ∧
      joinBlock = A.nextBlock + 2 ∧ (M.reserve 3).terminated = false ∧
      L' = (M.reserve 3).close
        (.branch (A.nextValue : Int) A.nextBlock ((A.nextBlock + 1 : Nat) : Int)) := by
  obtain ⟨fallible', A, lowered, done⟩ := bind_ok.mp done
  simp only [emitValue_then, newBlock_then, reserve_reserve,
    reserve_nextBlock, push_nextBlock, bump_nextBlock,
    Nat.reduceAdd, branchTo] at done
  obtain ⟨-, done⟩ := done
  obtain ⟨_, B, closed, done⟩ := bind_ok.mp done
  obtain ⟨free, rfl⟩ := terminate_ok.mp closed
  obtain ⟨same, rfl⟩ := pure_ok.mp done
  cases same
  obtain ⟨grown, bound⟩ := lowers _ _ _ lowered ready
  exact ⟨A, _, lowered, grown, bound, rfl, grown.emitValue _, rfl, rfl, rfl, free, rfl⟩

variable {error : Option (Lower ValueId)}

theorem failureValue_regular
    (lowers : ∀ action ∈ error, LowersExpr P action) {fallible failure : ValueId}
    {L L' : Lowerer} (done : failureValue fallible error L = .ok failure L') (ready : Ready L) :
    Regular P L L' := by
  cases error with
  | none =>
    obtain ⟨-, rfl⟩ := pure_ok.mp done
    exact .refl ready
  | some action => exact (lowers action rfl _ _ _ done ready).1

/-- `or return`: the failure is returned, the success is unwrapped. -/
structure OrReturnLayout (P : String → Prop) (value : Lower ValueId)
    (error : Option (Lower ValueId)) (type : TypeNode) (L : Lowerer) (id : ValueId)
    (M : Lowerer) where
  (fallible failure : ValueId)
  (A T E E' S : Lowerer)
  lowered : value L = .ok fallible A
  grown : Regular P L A
  bound : fallible < (A.nextValue : Int)
  tested : T = A.bump.push (.fallibleIsSuccess (A.nextValue : Int) fallible .bool)
  toFailure : Turns P L (T.reserve 3)
    (.branch (A.nextValue : Int) A.nextBlock (A.nextBlock + 1 : Nat)) E (A.nextBlock + 1)
  failureLowered : failureValue fallible error E = .ok failure E'
  failureGrown : Regular P E E'
  toSuccess : Turns P L E' (.ret (some failure)) S A.nextBlock
  isId : id = (S.nextValue : Int)
  toJoin : Turns P L (S.bump.push (.falliblePayload (S.nextValue : Int) fallible type))
    (.jump (A.nextBlock + 2 : Nat)) M (A.nextBlock + 2)

theorem lowerOrReturn_layout (first : LowersExpr P value)
    (second : ∀ action ∈ error, LowersExpr P action)
    (done : lowerOrReturn value error type L = .ok id M) (ready : Ready L) :
    Nonempty (OrReturnLayout P value error type L id M) := by
  obtain ⟨⟨fallible, successBlock, failureBlock, joinBlock⟩, _, tested, done⟩ := bind_ok.mp done
  obtain ⟨A, T, lowered, grownA, bound, isT, grown, rfl, rfl, rfl, free, rfl⟩ :=
    first.fallible tested ready
  have old : L.nextBlock ≤ A.nextBlock := grownA.blocks
  have sameBlock : T.nextBlock = A.nextBlock := by rw [isT]; rfl
  obtain ⟨E, isE, done⟩ := goto_inv done
  obtain ⟨failure, E', lowered', done⟩ := bind_ok.mp done
  obtain ⟨free', S, isS, done⟩ := turn_inv done
  obtain ⟨-, done⟩ := emitValue_then.mp done
  obtain ⟨free'', J, isJ, done⟩ := turn_inv done
  obtain ⟨isId, rfl⟩ := pure_ok.mp done
  have blank (index : Nat) (small : index < 3) := Blank.reserve grown.inside small
  rw [sameBlock] at blank
  have toFailure := (grown.within.reserve 3).turns free isE (blank 1 (by decide)) (by omega)
  have failed := failureValue_regular second lowered' (toFailure.regular.ready ready)
  have blankE (index : Nat) (small : index < 3) (other : index ≠ 1) :=
    (toFailure.others (blank index small) (by omega)).grown failed.toShape
  have toSuccess := (toFailure.regular.trans failed).within.turns free' isS
    (blankE 0 (by decide) (by decide)) (by omega)
  have toJoin := (toSuccess.regular.emitValue
    (.falliblePayload (S.nextValue : Int) fallible type)).within.turns free'' isJ
    ((toSuccess.others (blankE 2 (by decide) (by decide)) (by omega)).bump.push _) (by omega)
  exact ⟨⟨fallible, failure, A, T, E, E', S, lowered, grownA, bound, isT, toFailure, lowered',
    failed, toSuccess, isId, toJoin⟩⟩

theorem LowersExpr.orReturn
    (first : LowersExpr P value) (second : ∀ action ∈ error, LowersExpr P action)
    (type : TypeNode) : LowersExpr P (lowerOrReturn value error type) := by
  intro L id L' done ready
  obtain ⟨layout⟩ := lowerOrReturn_layout first second done ready
  have later : L'.nextValue = layout.S.nextValue + 1 := by
    simpa using congrArg Lowerer.nextValue layout.toJoin.begins.eq
  exact ⟨layout.toJoin.regular, layout.isId.trans_lt (Int.ofNat_lt.mpr (by omega))⟩

theorem bindAndJoin_within {value : Option ValueId}
    {join : Nat} {L M : Lowerer} (inside : L.current < L.nextBlock)
    (done : bindAndJoin resultName value type join L = .ok u M) : Within P L M := by
  cases value with
  | none =>
    obtain ⟨-, rfl⟩ := pure_ok.mp done
    exact .refl inside
  | some value =>
    rcases unlessTerminated_ok.mp done with ⟨-, rfl⟩ | ⟨free, done⟩
    · exact .refl inside
    · simp only [emit_then, jumpTo, terminate_ok] at done
      obtain ⟨-, free', rfl⟩ := done
      exact ((Within.refl inside).push free _).close free' _

/-- `or` with a value or a block: the success is unwrapped and bound, and so is what
replaces a failure, if it goes on. -/
structure OrElseLayout (P : String → Prop) (value : Lower ValueId)
    (other : Lower (Option ValueId)) (type : TypeNode) (resultName : String) (L J : Lowerer)
    where
  fallible : ValueId
  replacement : Option ValueId
  number : Nat
  (A T S B E E' E'' : Lowerer)
  lowered : value L = .ok fallible A
  grown : Regular P L A
  bound : fallible < (A.nextValue : Int)
  tested : T = A.bump.push (.fallibleIsSuccess (A.nextValue : Int) fallible .bool)
  free : (T.reserve 3).terminated = false
  fresh : resultName ∉ A.used
  toSuccess : Begins P L (((T.reserve 3).close
    (.branch (A.nextValue : Int) A.nextBlock (A.nextBlock + 1 : Nat))).take resultName number) S
    A.nextBlock
  isBound : B = (S.bump.push (.falliblePayload (S.nextValue : Int) fallible type)).push
    (.bind resultName (S.nextValue : Int) false type)
  toFailure : Turns P L B (.jump (A.nextBlock + 2 : Nat)) E (A.nextBlock + 1)
  otherLowered : other E = .ok replacement E'
  otherGrown : Within P E E'
  otherBound : ∀ id ∈ replacement, id < (E'.nextValue : Int)
  joined : bindAndJoin resultName replacement type (A.nextBlock + 2) E' = .ok () E''
  joining : Within P E' E''
  toJoin : Begins P L E'' J (A.nextBlock + 2)

include generated in
theorem lowerOrElse_layout {purpose : String} {value : Lower ValueId}
    {other : Lower (Option ValueId)} {type : TypeNode} {id : ValueId}
    (first : LowersExpr P value) (second : LowersBranch P other)
    (done : lowerOrElse purpose value other type L = .ok id M) (ready : Ready L) :
    ∃ resultName J, id = (J.nextValue : Int) ∧
      M = J.bump.push (.load (J.nextValue : Int) resultName type) ∧
      Nonempty (OrElseLayout P value other type resultName L J) := by
  obtain ⟨⟨fallible, successBlock, failureBlock, joinBlock⟩, _, tested, done⟩ := bind_ok.mp done
  obtain ⟨A, T, lowered, grownA, bound, isT, grown, rfl, rfl, rfl, free, rfl⟩ :=
    first.fallible tested ready
  have old : L.nextBlock ≤ A.nextBlock := grownA.blocks
  have sameBlock : T.nextBlock = A.nextBlock := by rw [isT]; rfl
  have sameUsed : (T.reserve 3).used = A.used := by rw [isT]; simp
  obtain ⟨resultName, _, named, done⟩ := bind_ok.mp done
  obtain ⟨fresh, shape, number, rfl⟩ := newInternalName_ok named
  obtain ⟨S, isS, done⟩ := goto_inv done
  obtain ⟨-, done⟩ := emitValue_then.mp done
  obtain ⟨-, done⟩ := emit_then.mp done
  obtain ⟨free', E, isE, done⟩ := turn_inv done
  obtain ⟨replacement, E', lowered', done⟩ := bind_ok.mp done
  obtain ⟨_, E'', joined, done⟩ := bind_ok.mp done
  obtain ⟨J, isJ, done⟩ := goto_inv done
  obtain ⟨isId, -, last⟩ := emitValue_ok.mp done
  have blank (index : Nat) (small : index < 3) (t : Terminator) :=
    ((Blank.reserve grown.inside small).close t).take resultName number
  rw [sameBlock] at blank
  have toSuccess := (((grown.within.reserve 3).close free _).take
    (internal_fits generated shape) number).begins isS (blank 0 (by decide) _) (by omega)
  have toFailure := ((toSuccess.regular.emitValue
    (.falliblePayload (S.nextValue : Int) fallible type)).push
    (.bind resultName (S.nextValue : Int) false type)).within.turns free' isE
    (((toSuccess.others (blank 1 (by decide) _) (by omega)).bump.push _).push _) (by omega)
  obtain ⟨grown', bound'⟩ := second _ _ _ lowered' (toFailure.regular.ready ready)
  have joining := bindAndJoin_within (P := P) grown'.inside joined
  have toJoin := (toFailure.regular.within.trans (grown'.trans joining)).begins isJ
    (((toFailure.others (((toSuccess.others (blank 2 (by decide) _) (by omega)).bump.push _).push
      _) (by omega)).grown grown'.toShape).grown joining.toShape) (by omega)
  exact ⟨resultName, J, isId, last, ⟨⟨fallible, replacement, number, A, T, S, _, E, E', E'',
    lowered, grownA, bound, isT, free, sameUsed ▸ fresh, toSuccess, rfl, toFailure, lowered',
    grown', fun id present => (bound' id present).2, joined, joining, toJoin⟩⟩⟩

include generated in
theorem LowersExpr.orElse {value : Lower ValueId} {other : Lower (Option ValueId)}
    (purpose : String) (first : LowersExpr P value) (second : LowersBranch P other)
    (type : TypeNode) : LowersExpr P (lowerOrElse purpose value other type) := by
  intro L id L' done ready
  obtain ⟨resultName, J, rfl, rfl, ⟨layout⟩⟩ := lowerOrElse_layout generated first second done ready
  exact ⟨layout.toJoin.regular.emitValue _, by simp⟩

/-! ### Match -/

include generated in
/-- A name bound in the innermost scope, with the instruction that binds it. -/
theorem bindingName_orderly {source internal : String} (declared : P source) {L M : Lowerer}
    (done : newBindingName source L = .ok internal M) (ready : Ready L) : Orderly P L M := by
  obtain ⟨unused, shape, number, rfl⟩ := newBindingName_ok done
  have fits : P internal := by
    rcases shape with rfl | ⟨k, rfl⟩
    · exact declared
    · exact generated _ (generated_renamed source k)
  exact .bindName ready unused fits number

include generated in
theorem LowersStmt.payload (scrutinee : ValueId) (canonical : String)
    {binding : Option (String × TypeNode)} (declared : ∀ entry ∈ binding, P entry.1)
    {L M : Lowerer} {u : Unit} (done : lowerPayload scrutinee canonical binding L = .ok u M)
    (ready : Ready L) : Orderly P L M ∧ M.terminated = false := by
  cases binding with
  | none =>
    obtain ⟨-, rfl⟩ := pure_ok.mp done
    exact ⟨.refl ready, ready.free⟩
  | some entry =>
    simp only [lowerPayload, emitValue_then] at done
    obtain ⟨-, done⟩ := done
    obtain ⟨internal, N, named, done⟩ := bind_ok.mp done
    obtain ⟨free, rfl⟩ := emit_ok.mp done
    have taken := (Regular.refl (P := P) ready).emitValue
      (.variantPayload (L.nextValue : Int) scrutinee canonical entry.2)
    have bound := bindingName_orderly generated (declared entry rfl) named (taken.ready ready)
    exact ⟨((taken.orderly ready).trans bound).push free _, by simpa using free⟩

include generated in
theorem LowersStmt.armBody {body : Lower (Option ValueId)} (lowers : LowersBranch P body)
    (scrutinee : ValueId) (resultName : String) (type : TypeNode) (joinBlock : Nat)
    (canonical : String) {binding : Option (String × TypeNode)}
    (declared : ∀ entry ∈ binding, P entry.1) :
    LowersStmt P (lowerArmBody scrutinee resultName type joinBlock canonical binding body) := by
  intro L u L' done ready
  obtain ⟨_, A, taken, done⟩ := bind_ok.mp done
  obtain ⟨value, B, lowered, done⟩ := bind_ok.mp done
  obtain ⟨first, free⟩ := LowersStmt.payload generated scrutinee canonical declared taken ready
  have readyA := first.ready ready free
  obtain ⟨second, -⟩ := lowers _ _ _ lowered readyA
  simp only [withState_apply] at done
  split at done
  · cases done
  · have third := bindAndJoin_within (P := P) second.inside done
    exact first.trans ((second.trans third).orderly readyA)

/-- One arm of a match: the test, the arm, and what follows when the test fails. -/
structure ArmLayout (P : String → Prop) (scrutinee : ValueId) (resultName : String)
    (type : TypeNode) (joinBlock : Nat) (canonical : String)
    (binding : Option (String × TypeNode)) (body : Lower (Option ValueId)) (L M : Lowerer) where
  (T B B' : Lowerer)
  tested : T = L.bump.push (.variantIs (L.nextValue : Int) scrutinee canonical .bool)
  toArm : Turns P L (T.reserve 2)
    (.branch (L.nextValue : Int) L.nextBlock (L.nextBlock + 1 : Nat)) B L.nextBlock
  lowered : inScope (lowerArmBody scrutinee resultName type joinBlock canonical binding body) B =
    .ok () B'
  grown : Within P B B'
  toMiss : Begins P L B' M (L.nextBlock + 1)

include generated in
theorem lowerArm_layout {body : Lower (Option ValueId)} (lowers : LowersBranch P body)
    {scrutinee : ValueId} {resultName : String} {type : TypeNode} {joinBlock : Nat}
    {canonical : String} {binding : Option (String × TypeNode)} {u : Unit}
    (declared : ∀ entry ∈ binding, P entry.1)
    (done : lowerArm scrutinee resultName type joinBlock canonical binding body L = .ok u M)
    (ready : Ready L) :
    Nonempty (ArmLayout P scrutinee resultName type joinBlock canonical binding body L M) := by
  simp only [lowerArm, branchTo, emitValue_then, newBlock_then, reserve_reserve,
    reserve_nextBlock, push_nextBlock, bump_nextBlock,
    Nat.reduceAdd] at done
  obtain ⟨-, done⟩ := done
  obtain ⟨free, B, isB, done⟩ := turn_inv done
  obtain ⟨_, B', lowered, done⟩ := bind_ok.mp done
  have last := setCurrent_ok.mp done
  have tested := (Regular.refl (P := P) ready).emitValue
    (.variantIs (L.nextValue : Int) scrutinee canonical .bool)
  obtain ⟨toArm, pending⟩ := (Pending.reserve tested.inside 2).turns (by decide)
    (tested.within.reserve 2) free isB (by simp)
  have grown := (LowersStmt.armBody generated lowers scrutinee resultName type joinBlock
    canonical declared).inScope _ _ _ lowered (toArm.regular.ready ready)
  obtain ⟨toMiss, -⟩ := (pending.grown grown.toShape).begins (by decide)
    (toArm.regular.within.trans grown) last (by simp)
  exact ⟨⟨_, B, B', rfl, toArm, lowered, grown, toMiss⟩⟩

include generated in
theorem LowersPart.arm {body : Lower (Option ValueId)} (lowers : LowersBranch P body)
    (scrutinee : ValueId) (resultName : String) (type : TypeNode) (joinBlock : Nat)
    (canonical : String) {binding : Option (String × TypeNode)}
    (declared : ∀ entry ∈ binding, P entry.1) :
    LowersPart P (lowerArm scrutinee resultName type joinBlock canonical binding body) := by
  intro L u L' done ready
  obtain ⟨layout⟩ := lowerArm_layout generated lowers declared done ready
  exact layout.toMiss.regular

/-- A match: its arms one after the other, and the join. -/
structure MatchLayout (P : String → Prop) (value : Lower ValueId)
    (arms : ValueId → String → Nat → Lower Unit) (resultName : String) (L J : Lowerer) where
  scrutinee : ValueId
  number : Nat
  (A C F : Lowerer)
  lowered : value L = .ok scrutinee A
  grown : Regular P L A
  bound : scrutinee < (A.nextValue : Int)
  fresh : resultName ∉ A.used
  reserved : C = (A.take resultName number).reserve 1
  reservedGrown : Regular P L C
  armsLowered : arms scrutinee resultName A.nextBlock C = .ok () F
  armsGrown : Regular P C F
  blank : Blank C A.nextBlock
  toJoin : Turns P L F
    (.unreachable "compiler-proven exhaustive match had no variant arm") J A.nextBlock

include generated in
theorem lowerMatch_layout {value : Lower ValueId} {arms : ValueId → String → Nat → Lower Unit}
    {type : TypeNode} {id : ValueId} (first : LowersExpr P value)
    (rest : ∀ id name join, LowersPart P (arms id name join))
    (done : lowerMatch value arms type L = .ok id M) (ready : Ready L) :
    ∃ resultName J, id = (J.nextValue : Int) ∧
      M = J.bump.push (.load (J.nextValue : Int) resultName type) ∧
      Nonempty (MatchLayout P value arms resultName L J) := by
  obtain ⟨scrutinee, A, lowered, done⟩ := bind_ok.mp done
  obtain ⟨resultName, _, named, done⟩ := bind_ok.mp done
  obtain ⟨fresh, shape, number, rfl⟩ := newInternalName_ok named
  simp only [newBlock_then, take_nextBlock] at done
  obtain ⟨_, F, lowered', done⟩ := bind_ok.mp done
  obtain ⟨free, J, isJ, done⟩ := turn_inv done
  obtain ⟨isId, -, last⟩ := emitValue_ok.mp done
  obtain ⟨grown, bound⟩ := first _ _ _ lowered ready
  have old : L.nextBlock ≤ A.nextBlock := grown.blocks
  have named' := grown.take (internal_fits generated shape) number
  have reserved := (named'.within.reserve 1).regular
    ((Lowerer.reserve_terminated _ named'.inside).trans named'.free)
  have grown' := rest _ _ _ _ _ _ lowered' (reserved.ready ready)
  have blank := Blank.reserve named'.inside (by decide : 0 < 1)
  have toJoin := (reserved.trans grown').within.turns free isJ (blank.grown grown'.toShape)
    (by simpa using old)
  exact ⟨resultName, J, isId, last, ⟨⟨scrutinee, number, A, _, F, lowered, grown, bound, fresh,
    rfl, reserved, lowered', grown', blank, toJoin⟩⟩⟩

include generated in
theorem LowersExpr.matchOn {value : Lower ValueId}
    {arms : ValueId → String → Nat → Lower Unit} (first : LowersExpr P value)
    (rest : ∀ id name join, LowersPart P (arms id name join)) (type : TypeNode) :
    LowersExpr P (lowerMatch value arms type) := by
  intro L id L' done ready
  obtain ⟨resultName, J, rfl, rfl, ⟨layout⟩⟩ := lowerMatch_layout generated first rest done ready
  exact ⟨layout.toJoin.regular.emitValue _, by simp⟩

/-! ### Statements -/

include generated in
theorem LowersStmt.letIn {value : Lower ValueId} (lowers : LowersExpr P value) {name : String}
    (declared : P name) (isMutable : Bool) (type : TypeNode) {L L' : Lowerer} {u : Unit}
    (done : lowerLet name isMutable value type L = .ok u L') (ready : Ready L) :
    Orderly P L L' ∧ L'.terminated = false := by
  obtain ⟨source, A, lowered, done⟩ := bind_ok.mp done
  obtain ⟨internal, B, named, done⟩ := bind_ok.mp done
  obtain ⟨free, rfl⟩ := emit_ok.mp done
  obtain ⟨grown, -⟩ := lowers _ _ _ lowered ready
  have bound := bindingName_orderly generated declared named (grown.ready ready)
  exact ⟨((grown.orderly ready).trans bound).push free _, by simpa using free⟩

theorem LowersBlock.terminate (t : Terminator) : LowersBlock P (terminate t) := by
  intro L u L' done ready
  obtain ⟨free, rfl⟩ := terminate_ok.mp done
  exact (Within.refl ready.inside).close free t

theorem LowersBlock.ret {value : Option (Lower ValueId)}
    (lowers : ∀ action ∈ value, LowersExpr P action) : LowersBlock P (lowerReturn value) := by
  cases value with
  | none => exact .terminate _
  | some action =>
    intro L u L' done ready
    obtain ⟨source, M, lowered, done⟩ := bind_ok.mp done
    obtain ⟨grown, -⟩ := lowers action rfl _ _ _ lowered ready
    exact grown.within.trans (LowersBlock.terminate _ _ _ _ done (grown.ready ready))

theorem LowersPart.block (lowers : LowersPart P action) :
    LowersBlock P action := fun L u L' done ready => (lowers L u L' done ready).within

/-- A jump to a target of the loop around it. -/
def leaveLoop (kind : String) (target : Nat × Nat → Nat) : Lower Unit :=
  withState fun lowerer =>
    match lowerer.loopTargets with
    | targets :: _ => jumpTo (target targets)
    | [] => emit (.astFallback none kind .unknown)

theorem lowerBreak_eq : lowerBreak = leaveLoop "BreakOutsideLoop" fst := by
  funext L
  simp only [lowerBreak, leaveLoop, withState_apply]
  cases L.loopTargets with
  | nil => rfl
  | cons targets rest => rfl

theorem lowerContinue_eq : lowerContinue = leaveLoop "ContinueOutsideLoop" snd := by
  funext L
  simp only [lowerContinue, leaveLoop, withState_apply]
  cases L.loopTargets with
  | nil => rfl
  | cons targets rest => rfl

theorem LowersBlock.leaveLoop (kind : String) (target : Nat × Nat → Nat) :
    LowersBlock P (leaveLoop kind target) := by
  intro L u L' done ready
  simp only [Lowering.leaveLoop, withState_apply] at done
  cases known : L.loopTargets with
  | nil =>
    rw [known] at done
    exact (LowersPart.emit _).block _ _ _ done ready
  | cons targets rest =>
    rw [known] at done
    exact LowersBlock.terminate _ _ _ _ done ready

theorem LowersBlock.breakLoop : LowersBlock P lowerBreak := lowerBreak_eq ▸ .leaveLoop _ _

theorem LowersBlock.continueLoop : LowersBlock P lowerContinue := lowerContinue_eq ▸ .leaveLoop _ _

theorem joinUnlessTerminated_within {join : Nat} {L M : Lowerer} (inside : L.current < L.nextBlock)
    (done : unlessTerminated (jumpTo join) L = .ok u M) : Within P L M := by
  rcases unlessTerminated_ok.mp done with ⟨-, rfl⟩ | ⟨free, done⟩
  · exact .refl inside
  · obtain ⟨-, rfl⟩ := terminate_ok.mp done
    exact (Within.refl inside).close free _

/-- An if statement: the test for an Error, the blocks for an Error and for the decision,
and the two branches, which join. -/
structure IfLayout (P : String → Prop) (condition : Lower ValueId)
    (thenBlock elseBranch : Lower Unit) (L M : Lowerer) where
  id : ValueId
  (A E D T T' T'' F F' F'' : Lowerer)
  lowered : condition L = .ok id A
  grown : Regular P L A
  bound : id < (A.nextValue : Int)
  toError : Turns P L (A.test id 5)
    (.branch (A.nextValue : Int) A.nextBlock (A.nextBlock + 1 : Nat)) E A.nextBlock
  toDecision : Turns P L E (.jump (A.nextBlock + 4 : Nat)) D (A.nextBlock + 1)
  toThen : Turns P L D (.branch id (A.nextBlock + 2 : Nat) (A.nextBlock + 3 : Nat)) T
    (A.nextBlock + 2)
  thenLowered : thenBlock T = .ok () T'
  thenGrown : Within P T T'
  thenJoined : unlessTerminated (jumpTo (A.nextBlock + 4)) T' = .ok () T''
  thenJoining : Within P T' T''
  toElse : Begins P L T'' F (A.nextBlock + 3)
  elseLowered : elseBranch F = .ok () F'
  elseGrown : Within P F F'
  elseJoined : unlessTerminated (jumpTo (A.nextBlock + 4)) F' = .ok () F''
  elseJoining : Within P F' F''
  toJoin : Begins P L F'' M (A.nextBlock + 4)

variable {condition : Lower ValueId} {thenBlock elseBranch : Lower Unit}

theorem lowerIf_layout (first : LowersExpr P condition) (second : LowersBlock P thenBlock)
    (third : LowersBlock P elseBranch)
    (done : lowerIf condition thenBlock elseBranch L = .ok u M) (ready : Ready L) :
    Nonempty (IfLayout P condition thenBlock elseBranch L M) := by
  obtain ⟨id, A, lowered, done⟩ := bind_ok.mp done
  simp only [branchTo, emitValue_then, newBlock_then, reserve_reserve,
    reserve_nextBlock, push_nextBlock, bump_nextBlock,
    Nat.reduceAdd] at done
  obtain ⟨-, done⟩ := done
  obtain ⟨free, E, isE, done⟩ := turn_inv done
  obtain ⟨free', D, isD, done⟩ := turn_inv done
  obtain ⟨free'', T, isT, done⟩ := turn_inv done
  obtain ⟨_, T', lowered', done⟩ := bind_ok.mp done
  obtain ⟨_, T'', joined, done⟩ := bind_ok.mp done
  obtain ⟨F, isF, done⟩ := goto_inv done
  obtain ⟨_, F', lowered'', done⟩ := bind_ok.mp done
  obtain ⟨_, F'', joined', done⟩ := bind_ok.mp done
  have last := setCurrent_ok.mp done
  obtain ⟨grown, bound⟩ := first _ _ _ lowered ready
  have old : L.nextBlock ≤ A.nextBlock := grown.blocks
  have tested := grown.emitValue (.isRuntimeError (A.nextValue : Int) id .bool)
  obtain ⟨toError, pending⟩ := (Pending.reserve tested.inside 5).turns (by decide)
    (tested.within.reserve 5) free isE old
  obtain ⟨toDecision, pending⟩ := pending.turns (by decide) toError.regular.within free' isD old
  obtain ⟨toThen, pending⟩ := pending.turns (by decide) toDecision.regular.within free'' isT old
  have body := second _ _ _ lowered' (toThen.regular.ready ready)
  have joining := joinUnlessTerminated_within (P := P) body.inside joined
  obtain ⟨toElse, pending⟩ := ((pending.grown body.toShape).grown joining.toShape).begins
    (by decide) (toThen.regular.within.trans (body.trans joining)) isF old
  have body' := third _ _ _ lowered'' (toElse.regular.ready ready)
  have joining' := joinUnlessTerminated_within (P := P) body'.inside joined'
  obtain ⟨toJoin, -⟩ := ((pending.grown body'.toShape).grown joining'.toShape).begins
    (by decide) (toElse.regular.within.trans (body'.trans joining')) last old
  exact ⟨⟨id, A, E, D, T, T', T'', F, F', F'', lowered, grown, bound, toError, toDecision,
    toThen, lowered', body, joined, joining, toElse, lowered'', body', joined', joining',
    toJoin⟩⟩

theorem LowersPart.ifThen (first : LowersExpr P condition) (second : LowersBlock P thenBlock)
    (third : LowersBlock P elseBranch) : LowersPart P (lowerIf condition thenBlock elseBranch) := by
  intro L u L' done ready
  obtain ⟨layout⟩ := lowerIf_layout first second third done ready
  exact layout.toJoin.regular

/-- An if statement whose value is consumed: the value of each branch is bound. -/
structure ValueIfLayout (P : String → Prop) (condition : Lower ValueId)
    (thenBlock elseBranch : Lower (Option ValueId)) (type : TypeNode) (resultName : String)
    (L J : Lowerer) where
  id : ValueId
  (thenId elseId : Option ValueId)
  number : Nat
  (A E D T T' T'' F F' F'' : Lowerer)
  lowered : condition L = .ok id A
  grown : Regular P L A
  bound : id < (A.nextValue : Int)
  fresh : resultName ∉ A.used
  toError : Turns P L ((A.test id 5).take resultName number)
    (.branch (A.nextValue : Int) A.nextBlock (A.nextBlock + 1 : Nat)) E A.nextBlock
  toDecision : Turns P L (E.push (.bind resultName id false type))
    (.jump (A.nextBlock + 4 : Nat)) D (A.nextBlock + 1)
  toThen : Turns P L D (.branch id (A.nextBlock + 2 : Nat) (A.nextBlock + 3 : Nat)) T
    (A.nextBlock + 2)
  thenLowered : thenBlock T = .ok thenId T'
  thenGrown : Within P T T'
  thenJoined : bindAndJoin resultName thenId type (A.nextBlock + 4) T' = .ok () T''
  thenJoining : Within P T' T''
  toElse : Begins P L T'' F (A.nextBlock + 3)
  elseLowered : elseBranch F = .ok elseId F'
  elseGrown : Within P F F'
  elseJoined : bindAndJoin resultName elseId type (A.nextBlock + 4) F' = .ok () F''
  elseJoining : Within P F' F''
  toJoin : Begins P L F'' J (A.nextBlock + 4)

include generated in
theorem lowerValueIf_layout {condition : Lower ValueId}
    {thenBlock elseBranch : Lower (Option ValueId)} {type : TypeNode} {id : ValueId}
    (first : LowersExpr P condition) (second : LowersBranch P thenBlock)
    (third : LowersBranch P elseBranch)
    (done : lowerValueIf condition thenBlock elseBranch type L = .ok id M) (ready : Ready L) :
    ∃ resultName J, id = (J.nextValue : Int) ∧
      M = J.bump.push (.load (J.nextValue : Int) resultName type) ∧
      Nonempty (ValueIfLayout P condition thenBlock elseBranch type resultName L J) := by
  obtain ⟨conditionId, A, lowered, done⟩ := bind_ok.mp done
  simp only [branchTo, emitValue_then, newBlock_then, reserve_reserve,
    reserve_nextBlock, push_nextBlock, bump_nextBlock,
    Nat.reduceAdd] at done
  obtain ⟨-, done⟩ := done
  obtain ⟨resultName, _, named, done⟩ := bind_ok.mp done
  obtain ⟨fresh, shape, number, rfl⟩ := newInternalName_ok named
  obtain ⟨free, E, isE, done⟩ := turn_inv done
  obtain ⟨-, done⟩ := emit_then.mp done
  obtain ⟨free', D, isD, done⟩ := turn_inv done
  obtain ⟨free'', T, isT, done⟩ := turn_inv done
  obtain ⟨thenId, T', lowered', done⟩ := bind_ok.mp done
  obtain ⟨_, T'', joined, done⟩ := bind_ok.mp done
  obtain ⟨F, isF, done⟩ := goto_inv done
  obtain ⟨elseId, F', lowered'', done⟩ := bind_ok.mp done
  obtain ⟨_, F'', joined', done⟩ := bind_ok.mp done
  obtain ⟨J, isJ, done⟩ := goto_inv done
  obtain ⟨isId, -, last⟩ := emitValue_ok.mp done
  obtain ⟨grown, bound⟩ := first _ _ _ lowered ready
  have old : L.nextBlock ≤ A.nextBlock := grown.blocks
  have tested := grown.emitValue (.isRuntimeError (A.nextValue : Int) conditionId .bool)
  obtain ⟨toError, pending⟩ := ((Pending.reserve tested.inside 5).imp fun _ blank =>
    blank.take resultName number).turns (by decide)
    ((tested.within.reserve 5).take (internal_fits generated shape) number) free isE old
  obtain ⟨toDecision, pending⟩ := (pending.imp fun _ blank => blank.push _).turns (by decide)
    (toError.regular.push (.bind resultName conditionId false type)).within free' isD old
  obtain ⟨toThen, pending⟩ := pending.turns (by decide) toDecision.regular.within free'' isT old
  obtain ⟨body, -⟩ := second _ _ _ lowered' (toThen.regular.ready ready)
  have joining := bindAndJoin_within (P := P) body.inside joined
  obtain ⟨toElse, pending⟩ := ((pending.grown body.toShape).grown joining.toShape).begins
    (by decide) (toThen.regular.within.trans (body.trans joining)) isF old
  obtain ⟨body', -⟩ := third _ _ _ lowered'' (toElse.regular.ready ready)
  have joining' := bindAndJoin_within (P := P) body'.inside joined'
  obtain ⟨toJoin, -⟩ := ((pending.grown body'.toShape).grown joining'.toShape).begins
    (by decide) (toElse.regular.within.trans (body'.trans joining')) isJ old
  exact ⟨resultName, J, isId, last, ⟨⟨conditionId, thenId, elseId, number, A, E, D, T, T', T'', F,
    F', F'', lowered, grown, bound, by simpa using fresh, toError, toDecision, toThen, lowered',
    body, joined, joining, toElse, lowered'', body', joined', joining', toJoin⟩⟩⟩

include generated in
theorem LowersExpr.valueIf {condition : Lower ValueId}
    {thenBlock elseBranch : Lower (Option ValueId)} (first : LowersExpr P condition)
    (second : LowersBranch P thenBlock) (third : LowersBranch P elseBranch)
    (type : TypeNode) : LowersExpr P (lowerValueIf condition thenBlock elseBranch type) := by
  intro L id L' done ready
  obtain ⟨resultName, J, rfl, rfl, ⟨layout⟩⟩ :=
    lowerValueIf_layout generated first second third done ready
  exact ⟨layout.toJoin.regular.emitValue _, by simp⟩

/-! ### Loops -/

theorem LowersPart.keepResult (result : Option (String × TypeNode)) (value : ValueId) :
    LowersPart P (keepResult result value) := by
  cases result with
  | none => exact .nothing
  | some entry => exact .emit _

/-- The end of a turn: an Error leaves the loop, anything else goes round. -/
structure LoopBackLayout (P : String → Prop) (bodyValue : ValueId)
    (exitBlock conditionBlock : Nat) (L M : Lowerer) where
  (E C : Lowerer)
  toError : Turns P L (L.test bodyValue 2)
    (.branch (L.nextValue : Int) L.nextBlock (L.nextBlock + 1 : Nat)) E L.nextBlock
  toAgain : Turns P L E (.jump exitBlock) C (L.nextBlock + 1)
  last : M = C.close (.jump conditionBlock)

variable {exitBlock conditionBlock : Nat}

theorem loopBack_layout {bodyValue : ValueId}
    (done : loopBack bodyValue exitBlock conditionBlock L = .ok u M) (ready : Ready L) :
    Nonempty (LoopBackLayout P bodyValue exitBlock conditionBlock L M) := by
  simp only [Lowering.loopBack, branchTo, emitValue_then, newBlock_then,
    reserve_reserve, reserve_nextBlock, push_nextBlock,
    bump_nextBlock, Nat.reduceAdd] at done
  obtain ⟨-, done⟩ := done
  obtain ⟨free, E, isE, done⟩ := turn_inv done
  obtain ⟨free', C, isC, done⟩ := turn_inv done
  obtain ⟨-, last⟩ := terminate_ok.mp done
  have tested := (Regular.refl (P := P) ready).emitValue
    (.isRuntimeError (L.nextValue : Int) bodyValue .bool)
  obtain ⟨toError, pending⟩ := (Pending.reserve tested.inside 2).turns (by decide)
    (tested.within.reserve 2) free isE (by simp)
  obtain ⟨toAgain, -⟩ := pending.turns (by decide) toError.regular.within free' isC (by simp)
  exact ⟨⟨E, C, toError, toAgain, last⟩⟩

theorem LowersBlock.loopBack (bodyValue : ValueId) (exitBlock conditionBlock : Nat) :
    LowersBlock P (loopBack bodyValue exitBlock conditionBlock) := by
  intro L u L' done ready
  obtain ⟨⟨E, C, toError, toAgain, rfl⟩⟩ := loopBack_layout (P := P) done ready
  exact toAgain.regular.within.close toAgain.regular.free _

theorem LowersBlock.endTurn (result : Option (String × TypeNode)) (bodyValue : ValueId)
    (exitBlock conditionBlock : Nat) :
    LowersBlock P (do
      Lowering.keepResult result bodyValue
      Lowering.loopBack bodyValue exitBlock conditionBlock) := by
  intro L u L' done ready
  obtain ⟨_, M, kept, done⟩ := bind_ok.mp done
  have grown := LowersPart.keepResult (P := P) result bodyValue _ _ _ kept ready
  exact grown.within.trans (LowersBlock.loopBack _ _ _ _ _ _ done (grown.ready ready))

variable {result : Option (String × TypeNode)}

theorem lowerTurn_within {bodyValue : Option ValueId} {L M : Lowerer}
    (done : lowerTurn result bodyValue exitBlock conditionBlock L = .ok u M)
    (inside : L.current < L.nextBlock) (lexical : WellScoped L) : Within P L M := by
  cases bodyValue with
  | none =>
    obtain ⟨-, rfl⟩ := pure_ok.mp done
    exact .refl inside
  | some value =>
    rcases unlessTerminated_ok.mp done with ⟨-, rfl⟩ | ⟨free, done⟩
    · exact .refl inside
    · exact LowersBlock.endTurn _ _ _ _ _ _ _ done ⟨free, inside, lexical⟩

theorem Ready.enterLoop {L : Lowerer} (ready : Ready L) (targets : List (Nat × Nat)) :
    Ready { L with loopTargets := targets } where
  free := ready.free
  inside := ready.inside
  lexical := ready.lexical.congr rfl (Subset.refl _)

theorem Shape.leaveLoop {L N : Lowerer} {targets : List (Nat × Nat)}
    (shape : Shape P { L with loopTargets := targets } N) (after : List (Nat × Nat)) :
    Shape P L { N with loopTargets := after } :=
  ⟨⟨shape.blocks, shape.used, shape.instructions, shape.terminated⟩, shape.kept, shape.current,
    shape.inside, shape.values, shape.names⟩

theorem LowersBranch.inLoop (lowers : LowersBranch P body) (breakTarget continueTarget : Nat) :
    LowersBranch P (inLoop breakTarget continueTarget body) := by
  intro L result L' done ready
  obtain ⟨N, lowered, rfl⟩ := inLoop_ok.mp done
  obtain ⟨grown, bound⟩ := lowers _ _ _ lowered (ready.enterLoop _)
  refine ⟨⟨grown.toShape.leaveLoop _, grown.scopes, ?_⟩, bound⟩
  simp [grown.loops]

/-- A while loop: the condition, what is kept of an Error there, the decision, the body with
the loop's targets, and the exit. -/
structure WhileLayout (P : String → Prop) (result : Option (String × TypeNode))
    (condition : Lower ValueId) (body : Lower (Option ValueId)) (L M : Lowerer) where
  id : ValueId
  bodyId : Option ValueId
  (C A E E' D B B' B'' : Lowerer)
  toCondition : Turns P L (L.reserve 5) (.jump L.nextBlock) C L.nextBlock
  lowered : condition C = .ok id A
  grown : Regular P C A
  bound : id < (A.nextValue : Int)
  toError : Turns P L (A.test id 0)
    (.branch (A.nextValue : Int) (L.nextBlock + 1 : Nat) (L.nextBlock + 2 : Nat)) E
    (L.nextBlock + 1)
  errorKept : keepResult result id E = .ok () E'
  errorGrown : Regular P E E'
  toDecision : Turns P L E' (.jump (L.nextBlock + 4 : Nat)) D (L.nextBlock + 2)
  toBody : Turns P L D (.branch id (L.nextBlock + 3 : Nat) (L.nextBlock + 4 : Nat)) B
    (L.nextBlock + 3)
  bodyLowered : inLoop (L.nextBlock + 4) L.nextBlock body B = .ok bodyId B'
  bodyGrown : Within P B B'
  turned : lowerTurn result bodyId (L.nextBlock + 4) L.nextBlock B' = .ok () B''
  turnGrown : Within P B' B''
  toExit : Begins P L B'' M (L.nextBlock + 4)

theorem lowerWhile_layout (first : LowersExpr P condition)
    (second : LowersBranch P body) (done : lowerWhile result condition body L = .ok u M)
    (ready : Ready L) : Nonempty (WhileLayout P result condition body L M) := by
  simp only [lowerWhile, newBlock_then, reserve_reserve, reserve_nextBlock, Nat.reduceAdd] at done
  obtain ⟨free, C, isC, done⟩ := turn_inv done
  obtain ⟨id, A, lowered, done⟩ := bind_ok.mp done
  obtain ⟨-, done⟩ := emitValue_then.mp done
  obtain ⟨free', E, isE, done⟩ := turn_inv done
  obtain ⟨_, E', kept, done⟩ := bind_ok.mp done
  obtain ⟨free'', D, isD, done⟩ := turn_inv done
  obtain ⟨free₃, B, isB, done⟩ := turn_inv done
  obtain ⟨bodyId, B', lowered', done⟩ := bind_ok.mp done
  obtain ⟨_, B'', turned, done⟩ := bind_ok.mp done
  have last := setCurrent_ok.mp done
  obtain ⟨toCondition, pending⟩ := (Pending.reserve ready.inside 5).turns (by decide)
    ((Within.refl (P := P) ready.inside).reserve 5) free isC le_rfl
  obtain ⟨grown, bound⟩ := first _ _ _ lowered (toCondition.regular.ready ready)
  have tested := grown.emitValue (.isRuntimeError (A.nextValue : Int) id .bool)
  obtain ⟨toError, pending⟩ := (pending.grown tested.toShape).turns (by decide)
    (toCondition.regular.trans tested).within free' isE le_rfl
  have keeps := LowersPart.keepResult (P := P) result id _ _ _ kept (toError.regular.ready ready)
  obtain ⟨toDecision, pending⟩ := (pending.grown keeps.toShape).turns (by decide)
    (toError.regular.trans keeps).within free'' isD le_rfl
  obtain ⟨toBody, pending⟩ := pending.turns (by decide) toDecision.regular.within free₃ isB le_rfl
  obtain ⟨grown', -⟩ := second.inLoop _ _ _ _ _ lowered' (toBody.regular.ready ready)
  have whole := toBody.regular.within.trans grown'
  have turning := lowerTurn_within (P := P) turned whole.inside
    (ready.lexical.congr whole.scopes whole.used)
  obtain ⟨toExit, -⟩ := ((pending.grown grown'.toShape).grown turning.toShape).begins
    (by decide) (whole.trans turning) last le_rfl
  exact ⟨⟨id, bodyId, C, A, E, E', D, B, B', B'', toCondition, lowered, grown, bound, toError,
    kept, keeps, toDecision, toBody, lowered', grown', turned, turning, toExit⟩⟩

theorem LowersPart.whileDo (result : Option (String × TypeNode)) (first : LowersExpr P condition)
    (second : LowersBranch P body) : LowersPart P (lowerWhile result condition body) := by
  intro L u L' done ready
  obtain ⟨layout⟩ := lowerWhile_layout first second done ready
  exact layout.toExit.regular

include generated in
theorem LowersTail.forBody {body : Lower (Option ValueId)} (lowers : LowersBranch P body)
    {name : String} (declared : P name) (itemType : TypeNode) (iterator : ValueId) :
    LowersTail P (lowerForBody name itemType iterator body) := by
  intro L result L' done ready
  simp only [lowerForBody, emitValue_then] at done
  obtain ⟨-, done⟩ := done
  obtain ⟨internal, B, named, done⟩ := bind_ok.mp done
  simp only [emit_then] at done
  obtain ⟨free, done⟩ := done
  have taken := (Regular.refl (P := P) ready).emitValue
    (.iterNext (L.nextValue : Int) iterator itemType)
  have bound := ((taken.orderly ready).trans
    (bindingName_orderly generated declared named (taken.ready ready))).push free
    (.bind internal (L.nextValue : Int) false itemType)
  have ready' := bound.ready ready (by simpa using free)
  obtain ⟨grown, value⟩ := lowers _ _ _ done ready'
  exact ⟨bound.trans (grown.orderly ready'), value⟩

theorem LowersTail.inLoop (lowers : LowersTail P body) (breakTarget continueTarget : Nat) :
    LowersTail P (inLoop breakTarget continueTarget body) := by
  intro L result L' done ready
  obtain ⟨N, lowered, rfl⟩ := inLoop_ok.mp done
  obtain ⟨grown, bound⟩ := lowers _ _ _ lowered (ready.enterLoop _)
  refine ⟨⟨grown.toShape.leaveLoop _, grown.scoping, ?_⟩, bound⟩
  simp [grown.loops]

/-- A for loop: what is kept of an Error iterable, the iterator, the test for a next item,
the body with the loop's targets, and the exit. -/
structure ForLayout (P : String → Prop) (result : Option (String × TypeNode)) (name : String)
    (itemType : TypeNode) (iterable : Lower ValueId) (body : Lower (Option ValueId))
    (L M : Lowerer) where
  id : ValueId
  bodyId : Option ValueId
  (A E E' I I' C C' B B' B'' : Lowerer)
  lowered : iterable L = .ok id A
  grown : Regular P L A
  bound : id < (A.nextValue : Int)
  toError : Turns P L (A.test id 5)
    (.branch (A.nextValue : Int) A.nextBlock (A.nextBlock + 1 : Nat)) E A.nextBlock
  errorKept : keepResult result id E = .ok () E'
  errorGrown : Regular P E E'
  toInit : Turns P L E' (.jump (A.nextBlock + 4 : Nat)) I (A.nextBlock + 1)
  isInit : I' = I.bump.push
    (.iterInit (I.nextValue : Int) id (.generic "Iterator" [itemType]))
  toCondition : Turns P L I' (.jump (A.nextBlock + 2 : Nat)) C (A.nextBlock + 2)
  isCondition : C' = C.bump.push (.iterHasNext (C.nextValue : Int) (I.nextValue : Int) .bool)
  toBody : Turns P L C'
    (.branch (C.nextValue : Int) (A.nextBlock + 3 : Nat) (A.nextBlock + 4 : Nat)) B
    (A.nextBlock + 3)
  bodyLowered : inScope (inLoop (A.nextBlock + 4) (A.nextBlock + 2)
    (lowerForBody name itemType (I.nextValue : Int) body)) B = .ok bodyId B'
  bodyGrown : Within P B B'
  turned : lowerTurn result bodyId (A.nextBlock + 4) (A.nextBlock + 2) B' = .ok () B''
  turnGrown : Within P B' B''
  toExit : Begins P L B'' M (A.nextBlock + 4)

include generated in
theorem lowerFor_layout {result : Option (String × TypeNode)} {name : String}
    {itemType : TypeNode} {iterable : Lower ValueId} {body : Lower (Option ValueId)} {u : Unit}
    (first : LowersExpr P iterable) (second : LowersBranch P body) (declared : P name)
    (done : lowerFor result name itemType iterable body L = .ok u M) (ready : Ready L) :
    Nonempty (ForLayout P result name itemType iterable body L M) := by
  obtain ⟨id, A, lowered, done⟩ := bind_ok.mp done
  simp only [branchTo, emitValue_then, newBlock_then, reserve_reserve,
    reserve_nextBlock, push_nextBlock, bump_nextBlock,
    Nat.reduceAdd] at done
  obtain ⟨-, done⟩ := done
  obtain ⟨free, E, isE, done⟩ := turn_inv done
  obtain ⟨_, E', kept, done⟩ := bind_ok.mp done
  obtain ⟨free', I, isI, done⟩ := turn_inv done
  simp only [emitValue_then] at done
  obtain ⟨-, done⟩ := done
  obtain ⟨free'', C, isC, done⟩ := turn_inv done
  simp only [emitValue_then] at done
  obtain ⟨-, done⟩ := done
  obtain ⟨free₃, B, isB, done⟩ := turn_inv done
  obtain ⟨bodyId, B', lowered', done⟩ := bind_ok.mp done
  obtain ⟨_, B'', turned, done⟩ := bind_ok.mp done
  have last := setCurrent_ok.mp done
  obtain ⟨grown, bound⟩ := first _ _ _ lowered ready
  have old : L.nextBlock ≤ A.nextBlock := grown.blocks
  have tested := grown.emitValue (.isRuntimeError (A.nextValue : Int) id .bool)
  obtain ⟨toError, pending⟩ := (Pending.reserve tested.inside 5).turns (by decide)
    (tested.within.reserve 5) free isE old
  have keeps := LowersPart.keepResult (P := P) result id _ _ _ kept (toError.regular.ready ready)
  obtain ⟨toInit, pending⟩ := (pending.grown keeps.toShape).turns (by decide)
    (toError.regular.trans keeps).within free' isI old
  obtain ⟨toCondition, pending⟩ := (pending.imp fun _ blank => blank.bump.push _).turns
    (by decide) (toInit.regular.emitValue
      (.iterInit (I.nextValue : Int) id (.generic "Iterator" [itemType]))).within free'' isC old
  obtain ⟨toBody, pending⟩ := (pending.imp fun _ blank => blank.bump.push _).turns (by decide)
    (toCondition.regular.emitValue
      (.iterHasNext (C.nextValue : Int) (I.nextValue : Int) .bool)).within free₃ isB old
  obtain ⟨grown', -⟩ := ((LowersTail.forBody generated second declared itemType _).inLoop _
    _).inScope _ _ _ lowered' (toBody.regular.ready ready)
  have whole := toBody.regular.within.trans grown'
  have turning := lowerTurn_within (P := P) turned whole.inside
    (ready.lexical.congr whole.scopes whole.used)
  obtain ⟨toExit, -⟩ := ((pending.grown grown'.toShape).grown turning.toShape).begins
    (by decide) (whole.trans turning) last old
  exact ⟨⟨id, bodyId, A, E, E', I, _, C, _, B, B', B'', lowered, grown, bound, toError, kept,
    keeps, toInit, rfl, toCondition, rfl, toBody, lowered', grown', turned, turning, toExit⟩⟩

include generated in
theorem LowersPart.forIn {iterable : Lower ValueId} {body : Lower (Option ValueId)}
    (result : Option (String × TypeNode)) (first : LowersExpr P iterable)
    (second : LowersBranch P body) {name : String} (declared : P name) (itemType : TypeNode) :
    LowersPart P (lowerFor result name itemType iterable body) := by
  intro L u L' done ready
  obtain ⟨layout⟩ := lowerFor_layout generated first second declared done ready
  exact layout.toExit.regular

include generated in
theorem LowersExpr.valueLoop (purpose : String) (type : TypeNode)
    {loop : Option (String × TypeNode) → Lower Unit}
    (lowers : ∀ result, LowersPart P (loop result)) :
    LowersExpr P (lowerValueLoop purpose type loop) := by
  intro L id L' done ready
  simp only [lowerValueLoop, emitUnit, emitValue_then] at done
  obtain ⟨-, done⟩ := done
  obtain ⟨resultName, B, named, done⟩ := bind_ok.mp done
  obtain ⟨-, shape, number, rfl⟩ := newInternalName_ok named
  simp only [emit_then] at done
  obtain ⟨-, done⟩ := done
  obtain ⟨_, F, lowered, done⟩ := bind_ok.mp done
  obtain ⟨rfl, -, rfl⟩ := emitValue_ok.mp done
  have bound := (((Regular.refl (P := P) ready).emitValue
    (.unit (L.nextValue : Int) .void)).take (internal_fits generated shape) number).push
    (.bind resultName (L.nextValue : Int) true type)
  have grown := lowers _ _ _ _ lowered (bound.ready ready)
  exact ⟨(bound.trans grown).emitValue _, by simp⟩

end Branching

/-! ## Tails -/

theorem LowersBranch.tail {action : Lower (Option ValueId)} (lowers : LowersBranch P action) :
    LowersTail P action := by
  intro L result L' done ready
  obtain ⟨grown, bound⟩ := lowers _ _ _ done ready
  exact ⟨grown.orderly ready, bound⟩

theorem LowersBlock.stmt (lowers : LowersBlock P action) :
    LowersStmt P action := fun L u L' done ready => (lowers L u L' done ready).orderly ready

theorem LowersBlock.absent (lowers : LowersBlock P action) : LowersTail P (absent action) := by
  intro L result L' done ready
  obtain ⟨_, M, lowered, done⟩ := bind_ok.mp done
  obtain ⟨rfl, rfl⟩ := pure_ok.mp done
  exact ⟨(lowers _ _ _ lowered ready).orderly ready, by simp⟩

theorem LowersExpr.emitUnit : LowersExpr P emitUnit := .emitValue _

theorem tailUnlessTerminated_ok {action : Lower (Option ValueId)} {result : Option ValueId}
    {L M : Lowerer} (free : L.terminated = false) :
    tailUnlessTerminated action L = .ok result M ↔ action L = .ok result M := by
  simp [tailUnlessTerminated, free]

end Koschei.Lowering
