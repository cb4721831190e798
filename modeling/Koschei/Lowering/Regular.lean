import Koschei.Lowering.Layout

/-!
# Every form lowers regularly

The lemmas on the forms, put together along the syntax: lowering an expression is
regular, lowering a statement is orderly, and every name that comes into use is
declared in the source or generated.
-/

set_option autoImplicit false
set_option linter.unusedSectionVars false

namespace Koschei.Lowering

open Lib Ast Mir

variable {P : String → Prop} {L M N : Lowerer}

/-! ## Along the syntax -/

section Syntax

variable (host : Host) (generated : ∀ name, Generated name → P name)

/-- After a terminator nothing more is lowered. -/
theorem lowerStmts_terminated {statements : List Stmt} {u : Unit} {L L' : Lowerer}
    (closed : L.terminated = true) (done : lowerStmts host statements L = .ok u L') : L' = L := by
  cases statements with
  | nil =>
    simp only [lowerStmts] at done
    exact (pure_ok.mp done).2
  | cons statement rest =>
    simp only [lowerStmts] at done
    rcases unlessTerminated_ok.mp done with ⟨-, same⟩ | ⟨free, -⟩
    · exact same
    · rw [closed] at free
      cases free

theorem lowerTail_terminated {statement : Stmt} {rest : List Stmt}
    {resultType : Option TypeNode} {result : Option ValueId} {L L' : Lowerer}
    (closed : L.terminated = true)
    (done : lowerTail host (statement :: rest) resultType L = .ok result L') :
    result = none ∧ L' = L := by
  have skipped (action : Lower (Option ValueId))
      (done : tailUnlessTerminated action L = .ok result L') : result = none ∧ L' = L := by
    simp only [tailUnlessTerminated, withState_apply, closed, if_true] at done
    exact pure_ok.mp done
  cases rest with
  | nil =>
    simp only [lowerTail] at done
    exact skipped _ done
  | cons next rest =>
    simp only [lowerTail] at done
    exact skipped _ done

include generated

mutual
theorem lowersExpr : (e : Expr) → (∀ name ∈ e.declared, P name) → LowersExpr P (lowerExpr host e)
  | .literal value type, _ => by
    simp only [lowerExpr]
    exact .emitValue _
  | .ident name type, _ => by
    simp only [lowerExpr]
    exact .ident host name type
  | .interpolated parts type, declared => by
    simp only [lowerExpr]
    exact (lowersAll parts declared).combine _
  | .list items type, declared => by
    simp only [lowerExpr]
    cases type.listItem with
    | none => exact .emitValue _
    | some _ => exact (lowersAll items declared).combine _
  | .map entries type, declared => by
    simp only [lowerExpr]
    exact .builder generated _ _ _
      (fun id name join => lowersEntries id name type join entries declared) type
  | .struct typeName fields required type, declared => by
    simp only [lowerExpr]
    exact .builder generated _ _ _
      (fun id name join => lowersFields id name type join fields declared) type
  | .member object name type, declared => by
    simp only [lowerExpr]
    exact (lowersExpr object declared).member name type
  | .call callee arguments resolution type, declared => by
    have rest := lowersAll arguments (forall_mem_append.mp declared).2
    have calleeDeclared : ∀ name ∈ callee.declared, P name := (forall_mem_append.mp declared).1
    have plain := lowersExpr callee calleeDeclared
    cases callee with
    | ident name calleeType =>
      simp only [lowerExpr]
      split
      · exact .construct host rest name calleeType arguments.length type
      · exact (LowersExpr.ident host name calleeType).apply rest _
    | member object name memberType =>
      have receiver := lowersExpr object calleeDeclared
      simp only [lowerExpr]
      cases resolution with
      | plain => exact (receiver.member name memberType).apply rest _
      | capability capabilityType method canonicalEffect powerDomain =>
        exact receiver.apply rest _
      | mapMethod method => exact receiver.mapMethod rest method type
    | _ =>
      rw [lowerExpr]
      · exact plain.apply rest _
      all_goals nofun
  | .assign name value type, declared => by
    simp only [lowerExpr]
    exact (lowersExpr value declared).assign name type
  | .assignField object objectType field value type, declared => by
    simp only [lowerExpr]
    exact .assignField host (lowersExpr value declared) object objectType field type
  | .binary left operator right type, declared => by
    have first := lowersExpr left (forall_mem_append.mp declared).1
    have second := lowersExpr right (forall_mem_append.mp declared).2
    simp only [lowerExpr]
    cases operator with
    | and => exact .shortCircuit generated first second true type
    | or => exact .shortCircuit generated first second false type
    | _ => exact first.binary second _ type
  | .unary operator operand type, declared => by
    simp only [lowerExpr]
    exact (lowersExpr operand declared).unary _
  | .orReturn value none type, declared => by
    simp only [lowerExpr]
    exact (lowersExpr value declared).orReturn (by simp) type
  | .orReturn value (some error) type, declared => by
    have first := lowersExpr value (forall_mem_append.mp declared).1
    have second := lowersExpr error (forall_mem_append.mp declared).2
    simp only [lowerExpr]
    refine first.orReturn ?_ type
    rintro _ ⟨rfl⟩
    exact second
  | .orElse value other type, declared => by
    have first := lowersExpr value (forall_mem_append.mp declared).1
    have second := lowersExpr other (forall_mem_append.mp declared).2
    simp only [lowerExpr]
    exact .orElse generated _ first second.present type
  | .orBlock value handler type, declared => by
    have first := lowersExpr value (forall_mem_append.mp declared).1
    have second := lowersTail handler (some type) (forall_mem_append.mp declared).2
    simp only [lowerExpr]
    exact .orElse generated _ first second.inScope type
  | .matchOn value arms exhaustive type, declared => by
    have first := lowersExpr value (forall_mem_append.mp declared).1
    have rest (id : ValueId) (name : String) (join : Nat) :=
      lowersArms id name type join arms (forall_mem_append.mp declared).2
    simp only [lowerExpr]
    split
    · intro L id L' done
      cases done
    · split
      · intro L id L' done
        cases done
      · exact .matchOn generated first rest type

theorem lowersAll : (es : List Expr) → (∀ name ∈ declaredAll es, P name) →
    LowersAll P (lowerAll host es)
  | [], _ => by
    simp only [lowerAll]
    intro L ids L' done ready
    obtain ⟨rfl, rfl⟩ := pure_ok.mp done
    exact ⟨.refl ready, by simp⟩
  | e :: rest, declared => by
    have first := lowersExpr e (forall_mem_append.mp declared).1
    have others := lowersAll rest (forall_mem_append.mp declared).2
    simp only [lowerAll]
    intro L ids L' done ready
    obtain ⟨value, M, lowered, done⟩ := bind_ok.mp done
    obtain ⟨values, N, lowered', done⟩ := bind_ok.mp done
    obtain ⟨rfl, rfl⟩ := pure_ok.mp done
    obtain ⟨grown, bound⟩ := first _ _ _ lowered ready
    obtain ⟨grown', bounds⟩ := others _ _ _ lowered' (grown.ready ready)
    refine ⟨grown.trans grown', ?_⟩
    intro id inside
    rcases mem_cons.mp inside with rfl | inside
    · exact bound.trans_le (Int.ofNat_le.mpr grown'.values)
    · exact bounds id inside

theorem lowersEntries (builder : ValueId) (resultName : String) (type : TypeNode)
    (finalJoin : Nat) : (entries : List (Expr × Expr)) →
    (∀ name ∈ declaredEntries entries, P name) →
    LowersPart P (lowerEntries host builder resultName type finalJoin entries)
  | [], _ => by
    simp only [lowerEntries]
    exact .nothing
  | (key, value) :: rest, declared => by
    simp only [declaredEntries, forall_mem_append] at declared
    have first := lowersExpr key declared.1.1
    have second := lowersExpr value declared.1.2
    have others := lowersEntries builder resultName type finalJoin rest declared.2
    simp only [lowerEntries]
    exact (LowersPart.entry first second builder resultName type finalJoin).andThen others

theorem lowersFields (builder : ValueId) (resultName : String) (type : TypeNode)
    (finalJoin : Nat) : (fields : List (String × Expr)) →
    (∀ name ∈ declaredFields fields, P name) →
    LowersPart P (lowerFields host builder resultName type finalJoin fields)
  | [], _ => by
    simp only [lowerFields]
    exact .nothing
  | (field, value) :: rest, declared => by
    simp only [declaredFields, forall_mem_append] at declared
    have first := lowersExpr value declared.1
    have others := lowersFields builder resultName type finalJoin rest declared.2
    simp only [lowerFields]
    exact (LowersPart.field first field builder resultName type finalJoin).andThen others

theorem lowersArms (scrutinee : ValueId) (resultName : String) (type : TypeNode)
    (joinBlock : Nat) : (arms : List Arm) → (∀ name ∈ declaredArms arms, P name) →
    LowersPart P (lowerArms host scrutinee resultName type joinBlock arms)
  | [], _ => by
    simp only [lowerArms]
    exact .nothing
  | .expression variant canonical binding body :: rest, declared => by
    simp only [declaredArms, forall_mem_append] at declared
    have bound : ∀ entry ∈ binding, P entry.1 := fun entry inside =>
      declared.1.1 _ (mem_map.mpr ⟨entry, by simpa using inside, rfl⟩)
    have first := lowersExpr body declared.1.2
    have others := lowersArms scrutinee resultName type joinBlock rest declared.2
    simp only [lowerArms]
    exact (LowersPart.arm generated first.present scrutinee resultName type joinBlock
      canonical bound).andThen others
  | .block variant canonical binding body :: rest, declared => by
    simp only [declaredArms, forall_mem_append] at declared
    have bound : ∀ entry ∈ binding, P entry.1 := fun entry inside =>
      declared.1.1 _ (mem_map.mpr ⟨entry, by simpa using inside, rfl⟩)
    have first := lowersTail body (some type) declared.1.2
    have others := lowersArms scrutinee resultName type joinBlock rest declared.2
    simp only [lowerArms]
    exact (LowersPart.arm generated first.inScope scrutinee resultName type joinBlock
      canonical bound).andThen others

theorem lowersStmt : (s : Stmt) → (∀ name ∈ s.declared, P name) → LowersStmt P (lowerStmt host s)
  | .letIn name isMutable value, declared => by
    have first := lowersExpr value (forall_mem_cons.mp declared).2
    simp only [lowerStmt]
    intro L u L' done ready
    exact (LowersStmt.letIn generated first (declared name mem_cons_self) isMutable
      value.type done ready).1
  | .expression e, declared => by
    have first := lowersExpr e declared
    simp only [lowerStmt]
    intro L u L' done ready
    obtain ⟨value, M, lowered, done⟩ := bind_ok.mp done
    obtain ⟨-, rfl⟩ := pure_ok.mp done
    exact (first _ _ _ lowered ready).1.orderly ready
  | .ret none, _ => by
    simp only [lowerStmt]
    exact (LowersBlock.ret (by simp)).stmt
  | .ret (some value), declared => by
    have first := lowersExpr value declared
    simp only [lowerStmt]
    refine (LowersBlock.ret ?_).stmt
    rintro _ ⟨rfl⟩
    exact first
  | .ifThen statement, declared => by
    simp only [lowerStmt]
    exact (lowersIf statement declared).block.stmt
  | .whileDo condition body bodyType, declared => by
    have first := lowersExpr condition (forall_mem_append.mp declared).1
    have second := lowersTail body bodyType (forall_mem_append.mp declared).2
    simp only [lowerStmt]
    exact (LowersPart.whileDo none first second.inScope).block.stmt
  | .forIn name iterable body bodyType, declared => by
    simp only [Stmt.declared, forall_mem_cons, forall_mem_append] at declared
    have first := lowersExpr iterable declared.2.1
    have second := lowersTail body bodyType declared.2.2
    simp only [lowerStmt]
    cases iterable.type.iterableItem with
    | none => exact (LowersPart.emit _).block.stmt
    | some itemType =>
      exact (LowersPart.forIn generated none first second.inScope (declared.1) itemType).block.stmt
  | .breakLoop, _ => by
    simp only [lowerStmt]
    exact LowersBlock.breakLoop.stmt
  | .continueLoop, _ => by
    simp only [lowerStmt]
    exact LowersBlock.continueLoop.stmt

theorem lowersIf : (s : IfStmt) → (∀ name ∈ s.declared, P name) → LowersPart P (lowerIfStmt host s)
  | .mk condition thenBlock elseBranch, declared => by
    simp only [IfStmt.declared, forall_mem_append] at declared
    have first := lowersExpr condition declared.1.1
    have second := lowersStmts thenBlock declared.1.2
    have third := lowersElse elseBranch declared.2
    simp only [lowerIfStmt]
    exact .ifThen first second.inScope third

theorem lowersElse : (s : Else) → (∀ name ∈ s.declared, P name) → LowersBlock P (lowerElse host s)
  | .nothing, _ => by
    simp only [lowerElse]
    exact LowersPart.nothing.block
  | .block statements, declared => by
    simp only [lowerElse]
    exact (lowersStmts statements declared).inScope
  | .elseIf statement, declared => by
    simp only [lowerElse]
    exact (lowersIf statement declared).block

theorem lowersValueIf : (s : IfStmt) → (type : TypeNode) → (∀ name ∈ s.declared, P name) →
    LowersExpr P (lowerValueIfStmt host s type)
  | .mk condition thenBlock elseBranch, type, declared => by
    simp only [IfStmt.declared, forall_mem_append] at declared
    have first := lowersExpr condition declared.1.1
    have second := lowersTail thenBlock (some type) declared.1.2
    have third := lowersValueElse elseBranch type declared.2
    simp only [lowerValueIfStmt]
    exact .valueIf generated first second.inScope third type

theorem lowersValueElse : (s : Else) → (type : TypeNode) → (∀ name ∈ s.declared, P name) →
    LowersBranch P (lowerValueElse host s type)
  | .nothing, type, _ => by
    simp only [lowerValueElse]
    exact LowersExpr.emitUnit.present
  | .block statements, type, declared => by
    simp only [lowerValueElse]
    exact (lowersTail statements (some type) declared).inScope
  | .elseIf statement, type, declared => by
    simp only [lowerValueElse]
    exact (lowersValueIf statement type declared).present

theorem lowersStmts : (ss : List Stmt) → (∀ name ∈ declaredStmts ss, P name) →
    LowersStmt P (lowerStmts host ss)
  | [], _ => by
    simp only [lowerStmts]
    exact LowersPart.nothing.block.stmt
  | s :: rest, declared => by
    have first := lowersStmt s (forall_mem_append.mp declared).1
    have others := lowersStmts rest (forall_mem_append.mp declared).2
    simp only [lowerStmts]
    intro L u L' done ready
    rcases unlessTerminated_ok.mp done with ⟨closed, -⟩ | ⟨-, done⟩
    · rw [ready.free] at closed
      cases closed
    · obtain ⟨_, M, lowered, done⟩ := bind_ok.mp done
      have grown := first _ _ _ lowered ready
      cases closed : M.terminated with
      | true =>
        rw [lowerStmts_terminated host closed done]
        exact grown
      | false => exact grown.trans (others _ _ _ done (grown.ready ready closed))

theorem lowersTail : (ss : List Stmt) → (resultType : Option TypeNode) →
    (∀ name ∈ declaredStmts ss, P name) → LowersTail P (lowerTail host ss resultType)
  | [], _, _ => by
    simp only [lowerTail]
    exact LowersExpr.emitUnit.present.tail
  | [s], resultType, declared => by
    have first := lowersTailStmt s resultType (forall_mem_append.mp declared).1
    simp only [lowerTail]
    intro L result L' done ready
    exact first _ _ _ ((tailUnlessTerminated_ok ready.free).mp done) ready
  | s :: next :: rest, resultType, declared => by
    have first := lowersStmt s (forall_mem_append.mp declared).1
    have others := lowersTail (next :: rest) resultType (forall_mem_append.mp declared).2
    simp only [lowerTail]
    intro L result L' done ready
    obtain ⟨_, M, lowered, done⟩ := bind_ok.mp ((tailUnlessTerminated_ok ready.free).mp done)
    have grown := first _ _ _ lowered ready
    cases closed : M.terminated with
    | true =>
      obtain ⟨rfl, rfl⟩ := lowerTail_terminated host closed done
      exact ⟨grown, by simp⟩
    | false =>
      obtain ⟨grown', bound⟩ := others _ _ _ done (grown.ready ready closed)
      exact ⟨grown.trans grown', bound⟩

theorem lowersTailStmt : (s : Stmt) → (resultType : Option TypeNode) →
    (∀ name ∈ s.declared, P name) → LowersTail P (lowerTailStmt host s resultType)
  | .expression e, _, declared => by
    have first := lowersExpr e declared
    simp only [lowerTailStmt]
    exact first.present.tail
  | .letIn name isMutable value, _, declared => by
    have first := lowersExpr value (forall_mem_cons.mp declared).2
    simp only [lowerTailStmt]
    intro L result L' done ready
    obtain ⟨_, M, lowered, done⟩ := bind_ok.mp done
    obtain ⟨grown, free⟩ := LowersStmt.letIn generated first
      (declared name mem_cons_self) isMutable value.type lowered ready
    obtain ⟨grown', bound⟩ := LowersExpr.emitUnit.present.tail _ _ _ done (grown.ready ready free)
    exact ⟨grown.trans grown', bound⟩
  | .ret none, _, _ => by
    simp only [lowerTailStmt]
    exact (LowersBlock.ret (by simp)).absent
  | .ret (some value), _, declared => by
    have first := lowersExpr value declared
    simp only [lowerTailStmt]
    refine (LowersBlock.ret ?_).absent
    rintro _ ⟨rfl⟩
    exact first
  | .breakLoop, _, _ => by
    simp only [lowerTailStmt]
    exact LowersBlock.breakLoop.absent
  | .continueLoop, _, _ => by
    simp only [lowerTailStmt]
    exact LowersBlock.continueLoop.absent
  | .ifThen statement, some type, declared => by
    have first := lowersValueIf statement type declared
    simp only [lowerTailStmt]
    exact first.present.tail
  | .ifThen _, none, _ => by
    simp only [lowerTailStmt]
    intro L result L' done
    cases done
  | .whileDo condition body bodyType, some type, declared => by
    have first := lowersExpr condition (forall_mem_append.mp declared).1
    have second := lowersTail body bodyType (forall_mem_append.mp declared).2
    simp only [lowerTailStmt]
    exact (LowersExpr.valueLoop generated _ type fun result =>
      LowersPart.whileDo result first second.inScope).present.tail
  | .whileDo _ _ _, none, _ => by
    simp only [lowerTailStmt]
    intro L result L' done
    cases done
  | .forIn name iterable body bodyType, some type, declared => by
    simp only [Stmt.declared, forall_mem_cons, forall_mem_append] at declared
    have first := lowersExpr iterable declared.2.1
    have second := lowersTail body bodyType declared.2.2
    simp only [lowerTailStmt]
    cases iterable.type.iterableItem with
    | none =>
      intro L result L' done
      cases done
    | some itemType =>
      exact (LowersExpr.valueLoop generated _ type fun result =>
        LowersPart.forIn generated result first second.inScope (declared.1) itemType).present.tail
  | .forIn _ _ _ _, none, _ => by
    simp only [lowerTailStmt]
    intro L result L' done
    cases done
end

end Syntax

end Koschei.Lowering
