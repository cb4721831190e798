import Koschei.Integrity.ControlFlow
import Koschei.Lowering.Edges
import Koschei.Lowering.Position

/-!
# Where lowered bodies end

A lowered body that does not end in a terminator gets a `return` of unit at its end.
For a body that always returns by the integrity check, this last block is the join of
an if statement whose branches have both left the function. It is entered from the
Error edge of the if statement alone, or from such a join of a branch: a block like
this is `Doomed`. On a run, whoever gets to a doomed block has therefore tested an
Error and has done nothing but jump since.
-/

namespace Koschei.Integrity

open Lib Ast Mir Lowering Relation

variable {σ : Type}

/-! ## Doomed blocks -/

/-- A block that ends with the test of a value for an Error, and leads to `e` if it is one. -/
def ErrorTest (draft : Draft) (e : Nat) : Prop :=
  ∃ before flag condition type decision, (decision : Int) ≠ e ∧
    draft = ⟨before ++ [.isRuntimeError flag condition type], some (.branch flag e decision)⟩

/-- A block between the bounds that is entered from an Error test, or by the jump of an empty
block that is doomed itself. -/
inductive Doomed (blocks : Nat → Draft) (low high : Nat) : Nat → Prop
  | mk {e : Nat} (new : low ≤ e) (made : e < high)
      (jumps : ∀ b, (blocks b).LeadsTo e → ¬ErrorTest (blocks b) e →
        blocks b = ⟨[], some (.jump e)⟩)
      (before : ∀ b, (blocks b).LeadsTo e → ¬ErrorTest (blocks b) e → Doomed blocks low high b) :
      Doomed blocks low high e

theorem Doomed.new {blocks : Nat → Draft} {low high e : Nat} (doomed : Doomed blocks low high e) :
    low ≤ e := by
  cases doomed
  assumption

/-- What does not lead to the blocks between the bounds leaves them doomed. -/
theorem Doomed.mono {blocks blocks' : Nat → Draft} {low high low' high' e : Nat}
    (doomed : Doomed blocks low high e) (lower : low' ≤ low) (higher : high ≤ high')
    (kept : ∀ j, low ≤ j → j < high → ∀ b, (blocks' b).LeadsTo j → blocks' b = blocks b) :
    Doomed blocks' low' high' e := by
  induction doomed with
  | mk new made jumps before ih =>
    refine .mk (lower.trans new) (made.trans_le higher) ?_ ?_
    · intro b leads
      have same := kept _ new made b leads
      rw [same] at leads ⊢
      exact jumps b leads
    · intro b leads
      have same := kept _ new made b leads
      rw [same] at leads ⊢
      exact ih b leads

/-- The lowerer stands in an empty open block that is doomed. -/
structure Dead (L M : Lowerer) : Prop where
  empty : M.blocks M.current = ⟨[], none⟩
  doomed : Doomed M.blocks L.nextBlock M.nextBlock M.current

def Sealed (L : Lowerer) : Prop := ∀ b j, (L.blocks b).LeadsTo j → j < L.nextBlock

/-- A state outside of loops, in a block that is made. -/
structure Standing (L : Lowerer) : Prop where
  loops : L.loopTargets = []
  inside : L.current < L.nextBlock
  isSealed : Sealed L

section Growth

variable {α : Type} {action : Lower α} {L L' : Lowerer} {a : α}

theorem Standing.apart (standing : Standing L) {j : Nat}
    (made : j < L.nextBlock ∨ L'.nextBlock ≤ j) : Apart j L L' :=
  ⟨made, by simp [standing.loops]⟩

theorem Standing.spared (standing : Standing L) (spares : ∀ j, Spares j True action)
    (done : action L = .ok a L') {j : Nat} (made : j < L.nextBlock ∨ L'.nextBlock ≤ j) :
    Spared j L L' :=
  (spares j L a L' done).2 trivial (standing.apart made)

theorem Standing.after (standing : Standing L) (spares : ∀ j, Spares j True action)
    (done : action L = .ok a L') : Standing L' := by
  have grown := (spares 0 L a L' done).1
  refine ⟨grown.loops.trans standing.loops, ?_, ?_⟩
  · by_contra outside
    have far : L'.nextBlock ≤ L'.current := not_lt.mp outside
    have := grown.blocks
    have := standing.inside
    exact (standing.spared spares done (.inr far)).current (by omega) rfl
  · intro b j leads
    by_contra outside
    have far : L'.nextBlock ≤ j := not_lt.mp outside
    have := grown.blocks
    rw [(standing.spared spares done (.inr far)).enters b leads] at leads
    have := standing.isSealed b j leads
    omega

end Growth

/-! ## The branches of an if statement -/

/-- An action after which the lowerer has left the function or is at a dead end. -/
def Concludes (action : Lower Unit) : Prop :=
  ∀ L u L', Standing L → action L = .ok u L' → L'.terminated = true ∨ Dead L L'

/-- A branch that concludes, with the jump to the join that follows it. -/
structure Branched (join : Nat) (T N : Lowerer) : Prop where
  standing : Standing N
  blocks : T.nextBlock ≤ N.nextBlock
  joins : ∀ b, (N.blocks b).LeadsTo join → N.blocks b = T.blocks b ∨
    N.blocks b = ⟨[], some (.jump join)⟩ ∧ Doomed N.blocks T.nextBlock N.nextBlock b
  enters : ∀ j < T.nextBlock, j ≠ join → ∀ b, (N.blocks b).LeadsTo j → N.blocks b = T.blocks b
  kept : ∀ j < T.nextBlock, j ≠ T.current → N.blocks j = T.blocks j

variable {body : Lower Unit} {u : Unit}

theorem branched (spares : ∀ j, Spares j True body)
    (concludes : Concludes body) {join : Nat} {u' : Unit} {T T' N : Lowerer}
    (standing : Standing T) (reserved : join < T.nextBlock)
    (lowered : body T = .ok u T') (joined : unlessTerminated (jumpTo join) T' = .ok u' N) :
    Branched join T N := by
  have standing' := standing.after spares lowered
  have grown := (spares 0 T u T' lowered).1.blocks
  have spared {j : Nat} (made : j < T.nextBlock) := standing.spared spares lowered (.inl made)
  rcases unlessTerminated_ok.mp joined with ⟨closed, rfl⟩ | ⟨free, joined⟩
  · exact ⟨standing', grown, fun b leads => .inl ((spared reserved).enters b leads),
      fun j made _ b leads => (spared made).enters b leads,
      fun j made other => (spared made).block other.symm⟩
  · obtain ⟨-, rfl⟩ := terminate_ok.mp joined
    have dead : Dead T T' := by
      rcases concludes T u T' standing lowered with closed | dead
      · rw [closed] at free
        cases free
      · exact dead
    -- The only new edge is the jump of the dead end to the join.
    have leads_other {j : Nat} (other : j ≠ join) {b : Nat}
        (leads : ((T'.close (.jump join)).blocks b).LeadsTo j) :
        (T'.close (.jump join)).blocks b = T'.blocks b :=
      (Spared.close (by simp [successors]; omega)).enters b leads
    have closed : (T'.close (.jump join)).blocks T'.current = ⟨[], some (.jump join)⟩ := by
      rw [Lowerer.close_blocks_self, dead.empty]
    refine ⟨⟨standing'.loops, standing'.inside, ?_⟩, grown, ?_, ?_, ?_⟩
    · intro b j leads
      by_cases other : j = join
      · subst other
        exact reserved.trans_le grown
      · rw [leads_other other leads] at leads
        exact standing'.isSealed b j leads
    · intro b leads
      by_cases here : b = T'.current
      · subst here
        refine .inr ⟨closed, dead.doomed.mono le_rfl le_rfl fun j new _ b leads => ?_⟩
        exact leads_other (by omega) leads
      · rw [Lowerer.close_blocks_of_ne _ _ here] at leads ⊢
        exact .inl ((spared reserved).enters b leads)
    · intro j made other b leads
      have same := leads_other other leads
      rw [same] at leads ⊢
      exact (spared made).enters b leads
    · intro j made other
      have moved : j ≠ T'.current := ((spared made).current other.symm).symm
      rw [Lowerer.close_blocks_of_ne _ _ moved]
      exact (spared made).block other.symm

/-- An empty open block leads nowhere. -/
theorem not_leadsTo_blank {j : Nat} : ¬(⟨[], none⟩ : Draft).LeadsTo j := not_leadsTo_of_open rfl

/-- The blocks that are reserved are blank, and the others as they were. -/
theorem reserve_blocks (L : Lowerer) (count b : Nat) : (L.reserve count).blocks b =
    if L.nextBlock ≤ b ∧ b < L.nextBlock + count then ⟨[], none⟩ else L.blocks b := by
  induction count with
  | zero => rw [if_neg (by omega), Lowerer.reserve]
  | succ count ih =>
    rw [Lowerer.reserve]
    by_cases last : b = (L.reserve count).nextBlock
    · rw [last, Lowerer.grow_blocks_self, Lowerer.reserve_nextBlock, if_pos (by omega)]
    · rw [Lowerer.grow_blocks_of_ne _ last, ih]
      rw [Lowerer.reserve_nextBlock] at last
      by_cases inside : L.nextBlock ≤ b ∧ b < L.nextBlock + count
      · rw [if_pos inside, if_pos (by omega)]
      · rw [if_neg inside, if_neg (by omega)]

theorem turn_blocks_apply (L : Lowerer) (t : Terminator) (block b : Nat) :
    (L.turn t block).blocks b =
      if b = L.current then ⟨(L.blocks b).instructions, some t⟩ else L.blocks b := by
  rw [Lowerer.turn_blocks]
  split
  · rename_i here
    rw [here, Lowerer.close_blocks_self]
  · rename_i other
    exact Lowerer.close_blocks_of_ne _ _ other

/-- The lowerer of an if statement when its first branch begins. -/
def ifStart (A : Lowerer) (id : ValueId) : Lowerer :=
  (((A.test id 5).turn (.branch (A.nextValue : Int) A.nextBlock (A.nextBlock + 1 : Nat))
    A.nextBlock).turn (.jump (A.nextBlock + 4 : Nat)) (A.nextBlock + 1)).turn
      (.branch id (A.nextBlock + 2 : Nat) (A.nextBlock + 3 : Nat)) (A.nextBlock + 2)

variable {A : Lowerer}

theorem ifStart_blocks (id : ValueId) (inside : A.current < A.nextBlock)
    (free : A.terminated = false) (b : Nat) : (ifStart A id).blocks b = if b = A.nextBlock + 1 then
        ⟨[], some (.branch id (A.nextBlock + 2 : Nat) (A.nextBlock + 3 : Nat))⟩
      else if b = A.nextBlock then ⟨[], some (.jump (A.nextBlock + 4 : Nat))⟩
      else if b = A.current then
        ⟨(A.blocks A.current).instructions ++ [.isRuntimeError (A.nextValue : Int) id .bool],
          some (.branch (A.nextValue : Int) A.nextBlock (A.nextBlock + 1 : Nat))⟩
      else if A.nextBlock ≤ b ∧ b < A.nextBlock + 5 then ⟨[], none⟩
      else A.blocks b := by
  have isOpen := Lowerer.open_of_free free
  rw [ifStart, turn_blocks_apply, turn_blocks_apply, turn_blocks_apply, Lowerer.test,
    reserve_blocks]
  simp only [Lowerer.turn_current, Lowerer.reserve_current, Lowerer.push_current,
    Lowerer.bump_current, Lowerer.push_nextBlock, Lowerer.bump_nextBlock]
  by_cases decision : b = A.nextBlock + 1
  · subst decision
    have other : A.nextBlock + 1 ≠ A.current := by omega
    simp [other]
  by_cases error : b = A.nextBlock
  · subst error
    have other : A.nextBlock ≠ A.current := by omega
    simp [other]
  by_cases test : b = A.current
  · subst test
    have old : ¬A.nextBlock ≤ A.current := by omega
    have pushed := A.bump.push_blocks_self (.isRuntimeError (A.nextValue : Int) id .bool)
    simp only [Lowerer.bump_current, Lowerer.bump_blocks] at pushed
    simp [decision, error, old, pushed]
  by_cases new : A.nextBlock ≤ b ∧ b < A.nextBlock + 5
  · simp [decision, error, test, new]
  · have kept := A.bump.push_blocks_of_ne (.isRuntimeError (A.nextValue : Int) id .bool) test
    simp only [decision, error, test, new, if_false]
    exact kept

/-- What leads to the join or to the Error block when the first branch begins. -/
theorem ifStart_leadsTo (id : ValueId) (standing : Standing A)
    (free : A.terminated = false) {b j : Nat} (new : A.nextBlock ≤ j)
    (leads : ((ifStart A id).blocks b).LeadsTo j) :
    (b = A.nextBlock ∧ j = A.nextBlock + 4) ∨
      (b = A.nextBlock + 1 ∧ (j = A.nextBlock + 2 ∨ j = A.nextBlock + 3)) ∨
      (b = A.current ∧ (j = A.nextBlock ∨ j = A.nextBlock + 1)) := by
  rw [ifStart_blocks id standing.inside free] at leads
  split at leads
  · simp only [leadsTo_closed, successors, mem_cons, not_mem_nil, or_false] at leads
    norm_cast at leads
    omega
  split at leads
  · simp only [leadsTo_closed, successors, mem_singleton] at leads
    norm_cast at leads
    omega
  split at leads
  · simp only [leadsTo_closed, successors, mem_cons, not_mem_nil, or_false] at leads
    norm_cast at leads
    omega
  split at leads
  · exact absurd leads not_leadsTo_blank
  · have := standing.isSealed b j leads
    omega

theorem ifStart_standing (id : ValueId) (standing : Standing A)
    (free : A.terminated = false) : Standing (ifStart A id) := by
  have next : (ifStart A id).nextBlock = A.nextBlock + 5 := by simp [ifStart, Lowerer.test]
  refine ⟨?_, ?_, ?_⟩
  · simp [ifStart, Lowerer.test, standing.loops]
  · rw [next]
    simp [ifStart]
  · intro b j leads
    rw [next]
    by_cases new : A.nextBlock ≤ j
    · have := ifStart_leadsTo id standing free new leads
      omega
    · omega

/-- **The join of an if statement whose branches conclude is a dead end.** -/
theorem lowerIf_dead {condition : Lower ValueId} {thenBlock elseBranch : Lower Unit}
    (first : ∀ j, Spares j True condition) (second : ∀ j, Spares j True thenBlock)
    (third : ∀ j, Spares j True elseBranch) (thenConcludes : Concludes thenBlock)
    (elseConcludes : Concludes elseBranch) {L M : Lowerer} (standing : Standing L)
    (done : lowerIf condition thenBlock elseBranch L = .ok u M) : Dead L M := by
  obtain ⟨id, A, lowered, done⟩ := bind_ok.mp done
  have standingA := standing.after first lowered
  have grownA := (first 0 L id A lowered).1.blocks
  simp only [branchTo, emitValue_then, newBlock_then, Lowerer.reserve_reserve,
    Lowerer.reserve_nextBlock, Lowerer.push_nextBlock, Lowerer.bump_nextBlock,
    Nat.reduceAdd] at done
  obtain ⟨freeA, done⟩ := done
  obtain ⟨-, E, isE, done⟩ := turn_inv done
  obtain ⟨-, D, isD, done⟩ := turn_inv done
  obtain ⟨-, T, isT, done⟩ := turn_inv done
  obtain ⟨_, T', thenLowered, done⟩ := bind_ok.mp done
  obtain ⟨_, T'', thenJoined, done⟩ := bind_ok.mp done
  obtain ⟨F, isF, done⟩ := goto_inv done
  obtain ⟨_, F', elseLowered, done⟩ := bind_ok.mp done
  obtain ⟨_, F'', elseJoined, done⟩ := bind_ok.mp done
  obtain rfl := setCurrent_ok.mp done
  obtain rfl : T = ifStart A id := by
    rw [isT, isD, isE]
    rfl
  have nextT : (ifStart A id).nextBlock = A.nextBlock + 5 := by simp [ifStart, Lowerer.test]
  have currentT : (ifStart A id).current = A.nextBlock + 2 := rfl
  have blockT := ifStart_blocks id standingA.inside freeA
  have thenBranch := branched second thenConcludes (ifStart_standing id standingA freeA)
    (by omega) thenLowered thenJoined
  have moreT := thenBranch.blocks
  have standingF : Standing F := by
    rw [isF]
    exact ⟨thenBranch.standing.loops, by simp; omega, thenBranch.standing.isSealed⟩
  have nextF : F.nextBlock = T''.nextBlock := by
    rw [isF]
    rfl
  have blockF : F.blocks = T''.blocks := by
    rw [isF]
    rfl
  have currentF : F.current = A.nextBlock + 3 := by
    rw [isF]
    rfl
  have elseBranched := branched third elseConcludes standingF (by omega) elseLowered elseJoined
  have moreF := elseBranched.blocks
  have inside := standingA.inside
  -- The Error block is entered from the test alone.
  have errorDoomed : Doomed F''.blocks L.nextBlock F''.nextBlock A.nextBlock := by
    have onlyTest (b : Nat) (leads : (F''.blocks b).LeadsTo A.nextBlock) :
        ErrorTest (F''.blocks b) A.nextBlock := by
      have same := elseBranched.enters A.nextBlock (by omega) (by omega) b leads
      rw [same, blockF] at leads
      have same' := thenBranch.enters A.nextBlock (by omega) (by omega) b leads
      rw [same'] at leads
      rw [same, blockF, same']
      obtain rfl : b = A.current := by
        have := ifStart_leadsTo id standingA freeA le_rfl leads
        omega
      refine ⟨(A.blocks A.current).instructions, (A.nextValue : Int), id, .bool,
        (A.nextBlock + 1 : Nat), by omega, ?_⟩
      rw [blockT, if_neg (by omega), if_neg (by omega), if_pos rfl]
    exact .mk grownA (by omega) (fun b leads other => absurd (onlyTest b leads) other)
      fun b leads other => absurd (onlyTest b leads) other
  -- The join is entered from the Error block and from dead ends of the branches.
  have entered (b : Nat) (leads : (F''.blocks b).LeadsTo (A.nextBlock + 4)) :
      F''.blocks b = ⟨[], some (.jump (A.nextBlock + 4 : Nat))⟩ ∧
        Doomed F''.blocks L.nextBlock F''.nextBlock b := by
    rcases elseBranched.joins b leads with same | ⟨jump, doomed⟩
    · rw [same, blockF] at leads
      rcases thenBranch.joins b leads with same' | ⟨jump, doomed⟩
      · rw [same'] at leads
        obtain rfl : b = A.nextBlock := by
          have := ifStart_leadsTo id standingA freeA (by omega) leads
          omega
        refine ⟨?_, errorDoomed⟩
        rw [same, blockF, same', blockT, if_neg (by omega), if_pos rfl]
      · refine ⟨by rw [same, blockF, jump], doomed.mono (by omega) (by omega) ?_⟩
        intro j new made b leads
        rw [elseBranched.enters j (by omega) (by omega) b leads, blockF]
    · exact ⟨jump, doomed.mono (by omega) le_rfl fun _ _ _ _ _ => rfl⟩
  have kept : F''.blocks (A.nextBlock + 4) = ⟨[], none⟩ := by
    rw [elseBranched.kept _ (by omega) (by omega), blockF,
      thenBranch.kept _ (by omega) (by omega), blockT, if_neg (by omega), if_neg (by omega),
      if_neg (by omega), if_pos (by omega)]
  exact ⟨kept, .mk (by simp; omega) (by simp; omega) (fun b leads _ => (entered b leads).1)
    fun b leads _ => (entered b leads).2⟩

/-! ## Statements that always return -/

theorem Concludes.inScope (concludes : Concludes body) : Concludes (Lowering.inScope body) := by
  intro L u M standing done
  obtain ⟨N, lowered, rfl⟩ := inScope_ok.mp done
  have standing' : Standing { L with scopes := [] :: L.scopes } :=
    ⟨standing.loops, standing.inside, standing.isSealed⟩
  rcases concludes _ u N standing' lowered with closed | dead
  · exact .inl closed
  · exact .inr ⟨dead.empty, dead.doomed⟩

/-- A `return` leaves the function. -/
theorem lowerReturn_terminated {value : Option (Lower ValueId)} {L M : Lowerer}
    (done : lowerReturn value L = .ok u M) : M.terminated = true := by
  cases value with
  | none =>
    obtain ⟨-, rfl⟩ := terminate_ok.mp done
    exact Lowerer.close_terminated _ _
  | some action =>
    obtain ⟨_, _, -, done⟩ := bind_ok.mp done
    obtain ⟨-, rfl⟩ := terminate_ok.mp done
    exact Lowerer.close_terminated _ _

section Syntax

variable (host : Host) (function : FunctionDeclaration)

mutual
theorem concludesStmts : (statements : List Stmt) →
    checkBlock function false statements = .ok true → Concludes (lowerStmts host statements)
  | [], accepted => by cases accepted
  | [statement], accepted => by
    intro L u M standing done
    simp only [lowerStmts] at done
    rcases unlessTerminated_ok.mp done with ⟨closed, rfl⟩ | ⟨-, done⟩
    · exact .inl closed
    · obtain ⟨_, N, lowered, done⟩ := bind_ok.mp done
      obtain ⟨-, rfl⟩ := pure_ok.mp done
      exact concludesStmt statement (checkBlock_last accepted) L _ M standing lowered
  | statement :: next :: rest, accepted => by
    intro L u M standing done
    rw [lowerStmts] at done
    rcases unlessTerminated_ok.mp done with ⟨closed, rfl⟩ | ⟨-, done⟩
    · exact .inl closed
    · obtain ⟨_, N, lowered, done⟩ := bind_ok.mp done
      have spares (j : Nat) := sparesStmt host j statement
      have grown := (spares 0 L _ N lowered).1.blocks
      rcases concludesStmts (next :: rest) (checkBlock_more accepted) N u M
        (standing.after spares lowered) done with closed | dead
      · exact .inl closed
      · exact .inr ⟨dead.empty, dead.doomed.mono grown le_rfl fun _ _ _ _ _ => rfl⟩

theorem concludesStmt : (statement : Stmt) → checkStatement function statement = .ok true →
    Concludes (lowerStmt host statement)
  | .ret none, _ => by
    intro L u M _ done
    simp only [lowerStmt] at done
    exact .inl (lowerReturn_terminated done)
  | .ret (some value), _ => by
    intro L u M _ done
    simp only [lowerStmt] at done
    exact .inl (lowerReturn_terminated done)
  | .ifThen statement, returns => by
    rw [checkStatement] at returns
    simp only [lowerStmt]
    exact concludesIf statement returns
  | .whileDo _ _ _, returns => by
    rw [checkStatement] at returns
    obtain ⟨_, _, returns⟩ := bind_eq_ok returns
    cases returns
  | .forIn _ _ _ _, returns => by
    rw [checkStatement] at returns
    obtain ⟨_, _, returns⟩ := bind_eq_ok returns
    cases returns
  | .letIn _ _ _, returns => by cases returns
  | .expression _, returns => by cases returns
  | .breakLoop, returns => by cases returns
  | .continueLoop, returns => by cases returns

theorem concludesIf : (statement : IfStmt) → checkIf function statement = .ok true →
    Concludes (lowerIfStmt host statement)
  | .mk condition thenBlock elseBranch, returns => by
    obtain ⟨thenReturns, elseReturns⟩ := checkIf_ok returns
    have thenConcludes := (concludesStmts thenBlock thenReturns).inScope
    have elseConcludes := concludesElse elseBranch elseReturns
    intro L u M standing done
    simp only [lowerIfStmt] at done
    exact .inr (lowerIf_dead (sparesExpr host · condition)
      (fun j => (sparesStmts host j thenBlock).inScope) (sparesElse host · elseBranch)
      thenConcludes elseConcludes standing done)

theorem concludesElse : (branch : Else) → checkElse function branch = .ok true →
    Concludes (lowerElse host branch)
  | .nothing, returns => by cases returns
  | .block statements, returns => by
    rw [checkElse] at returns
    simp only [lowerElse]
    exact (concludesStmts statements returns).inScope
  | .elseIf statement, returns => by
    rw [checkElse] at returns
    simp only [lowerElse]
    exact concludesIf statement returns
end

end Syntax

theorem standing_initial (function : FunctionDeclaration) : Standing (initialLowerer function) :=
  ⟨rfl, Nat.zero_lt_one, fun _ _ leads => absurd leads not_leadsTo_blank⟩

/-! ## Runs -/

section Runs

variable {machine : Machine σ} {call : Caller σ} {key : String} {blocks : List BasicBlock}
  {F : Lowerer} {frame : Frame} {store : Store σ} {c c' : Config σ}

/-- One step of a run. -/
def Steps (machine : Machine σ) (call : Caller σ) (key : String) (blocks : List BasicBlock)
    (c c' : Config σ) : Prop := step machine call key blocks c = .running c'

/-- Empty blocks that jump from one to the other. -/
def Jumps (blocks : List BasicBlock) (a b : BlockId) : Prop :=
  findBlock blocks a = some ⟨a, [], .jump b⟩

/-- The executor stands at the test of an Error, from which only jumps lead to a block. -/
def ErrorExit (blocks : List BasicBlock) (last : BlockId) (c : Config σ) : Prop :=
  ∃ before flag condition type message errorBlock decision,
    c.block.instructions = before ++ [.isRuntimeError flag condition type] ∧
    c.position = before.length ∧ c.frame.values condition = some (.error message) ∧
    c.block.terminator = .branch flag errorBlock decision ∧
    ReflTransGen (Jumps blocks) errorBlock last

theorem steps_cases (moves : Steps machine call key blocks c c') :
    (∃ i, c.block.instructions[c.position]? = some i ∧
      executeInstruction machine call key c.frame i c.store = .ok c'.frame c'.store ∧
      c'.block = c.block ∧ c'.position = c.position + 1) ∨
    (c.block.instructions.length ≤ c.position ∧
      followTerminator machine blocks c.frame c.store c.block.terminator = .running c') := by
  unfold Steps step at moves
  split at moves
  · rename_i i here
    split at moves
    · rename_i frame store ran
      cases moves
      exact .inl ⟨i, here, ran, rfl, rfl⟩
    · cases moves
    · cases moves
  · rename_i past
    exact .inr ⟨List.getElem?_eq_none_iff.mp past, moves⟩

variable {block : BasicBlock} {id : BlockId}

/-- The blocks of a finished lowerer are found under their numbers. -/
theorem findBlock_freeze_some (found : findBlock (freeze F) id = some block) :
    ∃ b, b < F.nextBlock ∧ id = (b : Int) ∧ block = freezeBlock b (F.blocks b) := by
  have member := mem_of_find?_eq_some found
  have sameId := find?_some found
  rw [mem_reverse, freeze, mem_map] at member
  obtain ⟨b, inside, rfl⟩ := member
  exact ⟨b, List.mem_range.mp inside, (beq_iff_eq.mp sameId).symm, rfl⟩

theorem enterBlock_running (enters : enterBlock (freeze F) id frame store = .running c') :
    ∃ b, b < F.nextBlock ∧ id = (b : Int) ∧ c' = ⟨freezeBlock b (F.blocks b), 0, frame, store⟩ := by
  unfold enterBlock at enters
  split at enters
  · rename_i block found
    obtain ⟨b, made, rfl, rfl⟩ := findBlock_freeze_some found
    cases enters
    exact ⟨b, made, rfl, rfl⟩
  · cases enters

variable {t : Terminator}

theorem followTerminator_running
    (follows : followTerminator machine (freeze F) frame store t = .running c') :
    ∃ b, b < F.nextBlock ∧ (b : Int) ∈ successors t ∧
      c' = ⟨freezeBlock b (F.blocks b), 0, frame, store⟩ ∧
      ∀ condition thenBlock elseBlock, t = .branch condition thenBlock elseBlock →
        elseBlock ≠ b → ∃ value, frame.values condition = some value ∧
          machine.runtime.host.truthy value = true := by
  cases t with
  | ret value =>
    cases value with
    | none => cases follows
    | some id =>
      simp only [followTerminator] at follows
      split at follows <;> cases follows
  | jump target =>
    obtain ⟨b, made, rfl, rfl⟩ := enterBlock_running follows
    refine ⟨b, made, by simp [successors], rfl, ?_⟩
    intro _ _ _ other
    cases other
  | branch condition thenBlock elseBlock =>
    simp only [followTerminator] at follows
    split at follows
    · cases follows
    · cases follows
    · rename_i value _ known
      obtain ⟨b, made, target, rfl⟩ := enterBlock_running follows
      refine ⟨b, made, ?_, rfl, ?_⟩
      · rw [← target]
        split <;> simp [successors]
      · intro _ _ _ same other
        cases same
        refine ⟨value, known, ?_⟩
        by_contra fails
        rw [if_neg fails] at target
        exact other target
  | unreachable reason => cases follows

theorem isRuntimeError_ok {flag condition : ValueId} {type : TypeNode} {frame' : Frame}
    {store' : Store σ}
    (ran : executeInstruction machine call key frame (.isRuntimeError flag condition type) store =
      .ok frame' store') :
    ∃ value, frame.values condition = some value ∧
      frame'.values flag = some (.bool value.isError) := by
  simp only [executeInstruction, Frame.assign] at ran
  obtain ⟨result, s, tested, assigned⟩ := andThen_eq_ok.mp ran
  obtain ⟨value, s', read, made⟩ := andThen_eq_ok.mp tested
  cases assigned
  cases made
  cases known : frame.values condition with
  | none =>
    simp only [Frame.read, known] at read
    cases read
  | some found =>
    simp only [Frame.read, known] at read
    cases read
    exact ⟨_, rfl, by simp [Frame.set]⟩

theorem followTerminator_position
    (follows : followTerminator machine blocks frame store t = .running c') : c'.position = 0 := by
  have entered {id : BlockId} (enters : enterBlock blocks id frame store = .running c') :
      c'.position = 0 := by
    unfold enterBlock at enters
    split at enters
    · cases enters
      rfl
    · cases enters
  cases t with
  | ret value =>
    cases value with
    | none => cases follows
    | some id =>
      simp only [followTerminator] at follows
      split at follows <;> cases follows
  | jump target => exact entered follows
  | branch condition thenBlock elseBlock =>
    simp only [followTerminator] at follows
    split at follows
    · cases follows
    · cases follows
    · exact entered follows
  | unreachable reason => cases follows

variable {c₀ : Config σ}

theorem run_position (begins : c₀.position = 0)
    (run : ReflTransGen (Steps machine call key blocks) c₀ c) :
    c.position = 0 ∨ ∃ earlier i, ReflTransGen (Steps machine call key blocks) c₀ earlier ∧
      earlier.block = c.block ∧ c.position = earlier.position + 1 ∧
      earlier.block.instructions[earlier.position]? = some i ∧
      executeInstruction machine call key earlier.frame i earlier.store = .ok c.frame c.store := by
  induction run with
  | refl => exact .inl begins
  | @tail c c' run moves _ =>
    rcases steps_cases moves with ⟨i, here, ran, block, position⟩ | ⟨-, follows⟩
    · exact .inr ⟨c, i, run, block.symm, position, here, ran⟩
    · exact .inl (followTerminator_position follows)

/-- A run over the blocks of a lowerer stands in one of them. -/
theorem run_block (begins : ∃ b, b < F.nextBlock ∧ c₀.block = freezeBlock b (F.blocks b))
    (run : ReflTransGen (Steps machine call key (freeze F)) c₀ c) :
    ∃ b, b < F.nextBlock ∧ c.block = freezeBlock b (F.blocks b) := by
  induction run with
  | refl => exact begins
  | tail _ moves ih =>
    rcases steps_cases moves with ⟨_, -, -, block, -⟩ | ⟨-, follows⟩
    · rw [block]
      exact ih
    · obtain ⟨b, made, -, rfl, -⟩ := followTerminator_running follows
      exact ⟨b, made, rfl⟩

theorem freezeBlock_inj {a b : Nat} {draft draft' : Draft}
    (same : freezeBlock a draft = freezeBlock b draft') : a = b := by
  have : (a : Int) = b := congrArg BasicBlock.id same
  omega

theorem leadsTo_of_frozen {b e : Nat}
    (leads : (e : Int) ∈ successors (freezeBlock b (F.blocks b)).terminator) :
    (F.blocks b).LeadsTo e := by
  cases known : (F.blocks b).terminator with
  | none => simp [freezeBlock, known, successors] at leads
  | some t =>
    simp only [freezeBlock, known, getD_some] at leads
    exact ⟨t, known, leads⟩

/-- **Whoever gets to a doomed block comes from the test of an Error by jumps alone.** -/
theorem errorExit_of_doomed (begins : c₀.position = 0)
    (first : c₀.block = freezeBlock 0 (F.blocks 0)) (made : 0 < F.nextBlock)
    (run : ReflTransGen (Steps machine call key (freeze F)) c₀ c) {e : Nat}
    (doomed : Doomed F.blocks 1 F.nextBlock e) (here : c.block = freezeBlock e (F.blocks e)) :
    ∃ earlier, ReflTransGen (Steps machine call key (freeze F)) c₀ earlier ∧
      ErrorExit (freeze F) e earlier := by
  induction run generalizing e with
  | refl =>
    have zero := freezeBlock_inj (here.symm.trans first)
    have := doomed.new
    omega
  | @tail c c' run moves ih =>
    rcases steps_cases moves with ⟨_, -, -, block, -⟩ | ⟨past, follows⟩
    · exact ih doomed (block ▸ here)
    · obtain ⟨e', -, inside, rfl, taken⟩ := followTerminator_running follows
      obtain rfl := freezeBlock_inj here
      obtain ⟨b, madeB, block⟩ := run_block ⟨0, made, first⟩ run
      have leads : (F.blocks b).LeadsTo e' := leadsTo_of_frozen (block ▸ inside)
      obtain ⟨-, -, jumps, before⟩ := doomed
      by_cases test : ErrorTest (F.blocks b) e'
      · obtain ⟨instructions, flag, condition, type, decision, other, draft⟩ := test
        have placed : c.block.instructions =
            instructions ++ [.isRuntimeError flag condition type] := by
          rw [block, draft]
          rfl
        have branches : c.block.terminator = .branch flag e' decision := by
          rw [block, draft]
          rfl
        -- The step before the branch was the test.
        rcases run_position begins run with zero | ⟨earlier, i, ran, same, next, isLast, done⟩
        · rw [placed, zero] at past
          simp at past
        · have length := (List.getElem?_eq_some_iff.mp isLast).choose
          rw [same, placed] at isLast length
          rw [placed] at past
          simp only [length_append, length_singleton] at past length
          obtain last : earlier.position = instructions.length := by omega
          rw [last, List.getElem?_concat_length] at isLast
          cases isLast
          obtain ⟨value, known, flagged⟩ := isRuntimeError_ok done
          obtain ⟨value', known', holds⟩ := taken flag e' decision branches other
          rw [flagged] at known'
          cases known'
          cases value with
          | error message =>
            exact ⟨earlier, ran, instructions, flag, condition, type, message, e', decision,
              same ▸ placed, last, known, same ▸ branches, .refl⟩
          | _ => cases holds
      · obtain ⟨earlier, ran, exit⟩ := ih (before b leads test) block
        have draft := jumps b leads test
        have jump : Jumps (freeze F) b e' := by
          unfold Jumps
          rw [findBlock_freeze madeB, draft]
          rfl
        obtain ⟨instructions, flag, condition, type, message, errorBlock, decision, placed,
          position, known, branches, path⟩ := exit
        exact ⟨earlier, ran, instructions, flag, condition, type, message, errorBlock, decision,
          placed, position, known, branches, path.tail jump⟩

/-- The jumps from an Error exit are taken. -/
theorem run_of_jumps (machine : Machine σ) (call : Caller σ) (key : String) (frame : Frame)
    (store : Store σ) {a b : BlockId} (path : ReflTransGen (Jumps blocks) a b)
    (found : findBlock blocks b = some block) : ∃ first, findBlock blocks a = some first ∧
      ReflTransGen (Steps machine call key blocks) ⟨first, 0, frame, store⟩
        ⟨block, 0, frame, store⟩ := by
  induction path using ReflTransGen.head_induction_on with
  | refl => exact ⟨block, found, .refl⟩
  | head jump _ ih =>
    obtain ⟨next, isNext, run⟩ := ih
    refine ⟨_, jump, .head ?_ run⟩
    simp [Steps, step, followTerminator, enterBlock, isNext]

theorem run_of_errorExit (machine : Machine σ) (call : Caller σ) (key : String) {last : BlockId}
    (exit : ErrorExit blocks last c) (found : findBlock blocks last = some block) :
    ∃ frame store, ReflTransGen (Steps machine call key blocks) c ⟨block, 0, frame, store⟩ := by
  obtain ⟨before, flag, condition, type, message, errorBlock, decision, placed, position, known,
    branches, path⟩ := exit
  obtain ⟨frame, isFrame⟩ : ∃ frame, frame = c.frame.set flag (.bool true) := ⟨_, rfl⟩
  obtain ⟨first, isFirst, run⟩ := run_of_jumps machine call key frame c.store path found
  refine ⟨frame, c.store, .head (b := ⟨c.block, before.length + 1, frame, c.store⟩) ?_
    (.head ?_ run)⟩
  · have tested : executeInstruction machine call key c.frame
        (.isRuntimeError flag condition type) c.store = .ok frame c.store := by
      simp [executeInstruction, Frame.assign, Frame.read, known, andThen, isFrame,
        Value.isError]
    have here : c.block.instructions[before.length]? =
        some (.isRuntimeError flag condition type) := by
      rw [placed, List.getElem?_concat_length]
    simp only [Steps, step, position, here, tested]
  · have past : c.block.instructions[before.length + 1]? = none := by
      rw [placed]
      simp
    have flagged : frame.values flag = some (.bool true) := by simp [isFrame, Frame.set]
    simp [Steps, step, past, branches, followTerminator, flagged, Host.truthy, enterBlock, isFirst]

end Runs

end Koschei.Integrity
