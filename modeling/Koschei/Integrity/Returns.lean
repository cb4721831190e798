import Koschei.Integrity.Endings
import Koschei.Lowering.Agreement

/-!
# Declared return types

A function with a declared return type that passes the integrity check returns on every
path, as the check sees paths. Both lanes check the result against the declared type
when the body is done. The result is in order when every `return` hands out a value of
the declared type and the body does not come to a dead end: an if statement at its end
whose condition is an Error. From a dead end the interpreter hands the Error to the
check, which most declared types refuse, and the executor hands out unit.
-/

namespace Koschei.Integrity

open Lib Ast Mir Lowering Relation

variable {σ : Type}

/-! ## The interpreter -/

section Interpreter

variable {setting : Setting σ} {key name : String} {module : Module}
  {function : FunctionDeclaration} {arguments : List Value} {store : Store σ}
  {names : Option (List String)}

/-- A call of the interpreter gets to the body: the function is found, the arguments are
admitted, and `names` is what the result will be checked against. -/
structure Called (setting : Setting σ) (key name : String) (module : Module)
    (function : FunctionDeclaration) (arguments : List Value) (store : Store σ)
    (names : Option (List String)) : Prop where
  found : setting.program.moduleFunction key name = .ok (module, function)
  arity : arguments.length = function.parameters.length
  passed : interpreterArguments setting function arguments store = .ok names store
  shallow : store.depth < maxCallDepth

/-- The state in which the body of a call begins. -/
def bodyState (function : FunctionDeclaration) (arguments : List Value) (store : Store σ) :
    State σ :=
  ⟨{ store with depth := store.depth + 1 }, [parameterScope function.parameters arguments]⟩

/-- The run of the statements of the body in the interpreter. -/
def interpretBody (setting : Setting σ) (module : Module) (function : FunctionDeclaration)
    (fuel : Nat) (arguments : List Value) (store : Store σ) : Outcome Signal (State σ) Value :=
  executeStatements (meaning (laneContext Lane.interpreter setting module fuel) fuel)
    function.body .unit (bodyState function arguments store)

/-- The result matches the names it is checked against. -/
def Matches (setting : Setting σ) (names : Option (List String)) (host : σ) (result : Value) :
    Prop :=
  ∀ expected, names = some expected →
    (setting.runtime.matchesType host result expected [] none).1 = true

/-- The body is done with a result: by a `return`, or by its end. -/
inductive Completed (run : Outcome Signal (State σ) Value) (result : Value) (state' : State σ) :
    Prop
  | byReturn (returned : run = .raise (.ret result) state')
  | byEnd (ended : run = .ok result state')

/-- The check hands the result on or refuses it. -/
theorem interpreterReturn_cases (setting : Setting σ) (function : FunctionDeclaration)
    (names : Option (List String)) (result : Value) (s : Store σ) :
    Matches setting names s.host result ∧
        interpreterReturn setting function names result s = .ok result s ∨
      ¬Matches setting names s.host result ∧
        ∃ fault, interpreterReturn setting function names result s = .raise fault s := by
  cases names with
  | none =>
    left
    refine ⟨?_, rfl⟩
    intro expected absent
    cases absent
  | some expected =>
    simp only [interpreterReturn, Matches, ask, bind_apply, andThen, some.injEq, forall_eq']
    cases (setting.runtime.matchesType s.host result expected [] none).1 with
    | true => simp
    | false => simp

variable {fuel : Nat} {result : Value} {state' : State σ}

section

variable (completed : Completed (interpretBody setting module function fuel arguments store) result
  state')

include completed

theorem bodyResult_completed :
    bodyResult (laneContext Lane.interpreter setting module fuel)
      (meaning (laneContext Lane.interpreter setting module fuel) fuel) function.body
      (bodyState function arguments store) = .ok result state' := by
  unfold bodyResult Comp.handle
  cases completed with
  | byReturn returned =>
    rw [bind_apply, show executeStatements _ _ _ _ = _ from returned]
    rfl
  | byEnd ended =>
    rw [bind_apply, show executeStatements _ _ _ _ = _ from ended]
    rfl

/-- A call whose body is done goes on with the check of the result. -/
theorem callBody_completed (called : Called setting key name module function arguments store names) :
    callBody setting (laneContext Lane.interpreter setting module fuel)
      (meaning (laneContext Lane.interpreter setting module fuel) fuel) function arguments
      ⟨store, [parameterScope function.parameters arguments]⟩ =
    (exec (interpreterReturn setting function names result)).finallyDo (changeDepth (· - 1))
      state' := by
  have passed := called.passed
  have body := bodyResult_completed completed
  have shallow : ¬maxCallDepth ≤ store.depth := not_le.mpr called.shallow
  have admitted : (exec (do
      let _ ← interpreterArguments setting function arguments
      pure ()) : Eval σ Unit) ⟨store, [parameterScope function.parameters arguments]⟩ =
        .ok () ⟨store, [parameterScope function.parameters arguments]⟩ := by
    simp [exec, passed, andThen]
  unfold callBody
  rw [if_neg (not_not.mpr called.arity), withState_apply]
  refine (bind_known admitted).trans ?_
  simp only [passed, Outcome.resultD, shallow, if_false]
  unfold Comp.finallyDo
  have checked : (do
      Comp.modify (changeDepth (· + 1))
      let result ← bodyResult (laneContext Lane.interpreter setting module fuel)
        (meaning (laneContext Lane.interpreter setting module fuel) fuel) function.body
      exec (interpreterReturn setting function names result) : Eval σ Value)
        ⟨store, [parameterScope function.parameters arguments]⟩ =
      exec (interpreterReturn setting function names result) state' :=
    (bind_known rfl).trans (bind_known body)
  rw [← checked]
  rfl

theorem callFunction_hands (called : Called setting key name module function arguments store names) :
    (∃ s, callFunction Lane.interpreter setting (fuel + 1) key name arguments store =
      .ok result s) ↔ Matches setting names state'.store.host result := by
  have body := callBody_completed completed called
  have call : callFunction Lane.interpreter setting (fuel + 1) key name arguments store =
      asCall Lane.interpreter [parameterScope function.parameters arguments]
        (callBody setting (laneContext Lane.interpreter setting module fuel)
          (meaning (laneContext Lane.interpreter setting module fuel) fuel) function arguments)
        store := by
    simp only [callFunction, called.found]
    rfl
  rw [call]
  unfold asCall Comp.finallyDo at *
  rw [body]
  rcases interpreterReturn_cases setting function names result state'.store with
    ⟨holds, handed⟩ | ⟨fails, fault, refused⟩
  · simp only [exec, handed]
    exact ⟨fun _ => holds, fun _ => ⟨_, rfl⟩⟩
  · simp only [exec, refused]
    refine ⟨?_, fun holds => absurd holds fails⟩
    rintro ⟨s, handed⟩
    cases handed

end

/-- The run of a body is in order: what a `return` hands out matches, and so does the Error
that leaves the body by a dead end. -/
structure InOrder (setting : Setting σ) (module : Module) (function : FunctionDeclaration)
    (fuel : Nat) (arguments : List Value) (store : Store σ) (names : Option (List String)) :
    Prop where
  returns : ∀ value state',
    interpretBody setting module function fuel arguments store = .raise (.ret value) state' →
      Matches setting names state'.store.host value
  deadEnds : DeadEnd (laneContext Lane.interpreter setting module fuel) fuel function.body
      (bodyState function arguments store) → ∀ value state',
    interpretBody setting module function fuel arguments store = .ok value state' →
      Matches setting names state'.store.host value

/-- **When the interpreter keeps a declared return type.** A call whose body is done hands the
result to its caller, and does not end with unit, exactly when the run is in order. -/
theorem interpreter_keeps_iff {written : List String}
    (declared : function.returnNames = some written) (accepted : checkFunction function = .ok ())
    (called : Called setting key name module function arguments store names)
    (completed : Completed (interpretBody setting module function fuel arguments store) result
      state') :
    ((∃ s, callFunction Lane.interpreter setting (fuel + 1) key name arguments store =
          .ok result s) ∧
        interpretBody setting module function fuel arguments store ≠ .ok .unit state') ↔
      InOrder setting module function fuel arguments store names := by
  have returns := checkFunction_ok declared accepted
  have noUnit : interpretBody setting module function fuel arguments store ≠ .ok .unit state' := by
    intro ended
    have isError := (deadEnd_of_completes returns ended).2
    cases isError
  rw [callFunction_hands completed called]
  refine ⟨fun holds => ?_, fun order => ⟨?_, noUnit⟩⟩
  · cases completed with
    | byReturn returned =>
      refine ⟨fun value s other => ?_, fun _ value s ended => ?_⟩
      · rw [returned] at other
        cases other
        exact holds.1
      · rw [returned] at ended
        cases ended
    | byEnd ended =>
      refine ⟨fun value s returned => ?_, fun _ value s other => ?_⟩
      · rw [ended] at returned
        cases returned
      · rw [ended] at other
        cases other
        exact holds.1
  · cases completed with
    | byReturn returned => exact order.returns result state' returned
    | byEnd ended =>
      exact order.deadEnds (deadEnd_of_completes returns ended).1 result state' ended

end Interpreter

/-! ## The executor -/

section Executor

variable {machine : Machine σ} {key name : String} {lowered : MirModule}
  {function : FunctionDeclaration} {blocks : List BasicBlock} {arguments : List Value}
  {store : Store σ} {bindings : TypeBindings}

/-- A call of the executor gets to the body of a lowered function. -/
structure Entered (machine : Machine σ) (key name : String) (lowered : MirModule)
    (function : FunctionDeclaration) (blocks : List BasicBlock) (arguments : List Value)
    (store : Store σ) (bindings : TypeBindings) : Prop where
  found : machine.graph.moduleFunction key name =
    .ok (lowered, { signature function with blocks := blocks })
  made : lowerFunction machine.runtime.host function = .ok blocks
  arity : arguments.length = function.parameters.length
  passed : checkArguments machine.runtime { signature function with blocks := blocks }
    ((signature function).parameters.zip arguments)
    (if function.typeParameters.isEmpty then none else some []) store = .ok bindings store
  shallow : store.depth < maxCallDepth

/-- The block whose `return` was put there because the body came to its end. -/
def endBlock (host : Host) (function : FunctionDeclaration) : Option Nat :=
  match lowerStmts host function.body (initialLowerer function) with
  | .ok _ L => if L.terminated then none else some L.current
  | _ => none

/-- Where the body of a call begins. -/
def bodyStart (function : FunctionDeclaration) (blocks : List BasicBlock)
    (arguments : List Value) (store : Store σ) : Progress σ :=
  enterBlock blocks 0 (initialFrame (signature function).parameters arguments)
    { store with depth := store.depth + 1 }

/-- The run of a call with some fuel gets to a configuration. -/
def Reaches (machine : Machine σ) (lowered : MirModule) (function : FunctionDeclaration)
    (blocks : List BasicBlock) (fuel : Nat) (arguments : List Value) (store : Store σ)
    (c : Config σ) : Prop :=
  ∃ c₀, bodyStart function blocks arguments store = .running c₀ ∧
    ReflTransGen (Steps machine (Mir.call machine fuel) lowered.key blocks) c₀ c

/-- The run of a body falls off its end. -/
def FallsOff (machine : Machine σ) (lowered : MirModule) (function : FunctionDeclaration)
    (blocks : List BasicBlock) (fuel : Nat) (arguments : List Value) (store : Store σ) : Prop :=
  ∃ last c, endBlock machine.runtime.host function = some last ∧ c.block.id = (last : Int) ∧
    Reaches machine lowered function blocks fuel arguments store c

/-- The result matches the declared return type. -/
def MatchesReturn (machine : Machine σ) (function : FunctionDeclaration)
    (bindings : TypeBindings) (host : σ) (result : Value) : Prop :=
  (machine.runtime.matchesType host result function.returnType.runtimeNames
    function.typeParameters bindings).1 = true

/-- The run of a lowered body is in order: no Error is tested from which only jumps lead to the
end of the body, and what a `return` hands out matches. -/
structure LoweredInOrder (machine : Machine σ) (lowered : MirModule)
    (function : FunctionDeclaration) (blocks : List BasicBlock) (fuel : Nat)
    (arguments : List Value) (store : Store σ) (bindings : TypeBindings) : Prop where
  errors : ∀ last c, endBlock machine.runtime.host function = some last →
    Reaches machine lowered function blocks fuel arguments store c → ¬ErrorExit blocks last c
  returns : ∀ c value store', Reaches machine lowered function blocks fuel arguments store c →
    step machine (Mir.call machine fuel) lowered.key blocks c = .returned value store' →
      MatchesReturn machine function bindings store'.host value

variable {fuel : Nat} {value result : Value} {store' : Store σ} {call : Caller σ}

/-- A run that hands out a value has got to its `return`. -/
theorem runSteps_ok {progress : Progress σ}
    (done : runSteps machine call key blocks fuel progress = .ok value store') :
    progress = .returned value store' ∨ ∃ c₀ c, progress = .running c₀ ∧
      ReflTransGen (Steps machine call key blocks) c₀ c ∧
      step machine call key blocks c = .returned value store' := by
  induction fuel generalizing progress with
  | zero =>
    cases progress with
    | returned value store =>
      cases done
      exact .inl rfl
    | _ => cases done
  | succ fuel ih =>
    cases progress with
    | returned value store =>
      cases done
      exact .inl rfl
    | running c₀ =>
      rw [runSteps] at done
      rcases ih done with returned | ⟨next, c, moves, run, returned⟩
      · exact .inr ⟨c₀, c₀, rfl, .refl, returned⟩
      · exact .inr ⟨c₀, c, rfl, .head moves run, returned⟩
    | failed fault store => cases done
    | timeout => cases done

/-- A run gets to at most one `return`. -/
theorem returned_unique {c₀ c c' : Config σ} {value value' : Value}
    {s s' : Store σ} (run : ReflTransGen (Steps machine call key blocks) c₀ c)
    (run' : ReflTransGen (Steps machine call key blocks) c₀ c')
    (returned : step machine call key blocks c = .returned value s)
    (returned' : step machine call key blocks c' = .returned value' s') :
    value = value' ∧ s = s' := by
  have unique : Relator.RightUnique (Steps machine call key blocks) := by
    intro a b b' moves moves'
    unfold Steps at moves moves'
    rw [moves] at moves'
    cases moves'
    rfl
  have stuck {a b : Config σ} {v : Value} {t : Store σ}
      (ends : step machine call key blocks a = .returned v t)
      (more : ReflTransGen (Steps machine call key blocks) a b) : b = a := by
    rcases ReflTransGen.cases_head more with same | ⟨next, moves, -⟩
    · exact same.symm
    · unfold Steps at moves
      rw [ends] at moves
      cases moves
  have same : c = c' := by
    rcases ReflTransGen.total_of_right_unique unique run run' with more | more
    · exact (stuck returned more).symm
    · exact stuck returned' more
  subst same
  rw [returned] at returned'
  cases returned'
  exact ⟨rfl, rfl⟩

theorem lowered_end {host : Host} (made : lowerFunction host function = .ok blocks)
    (accepted : checkBlock function false function.body = .ok true) :
    ∃ F, blocks = freeze F ∧ 0 < F.nextBlock ∧
      ∀ last, endBlock host function = some last → last < F.nextBlock ∧
        F.blocks last = ⟨[], some (.ret none)⟩ ∧ Doomed F.blocks 1 F.nextBlock last := by
  unfold lowerFunction at made
  split at made
  · rename_i u F done
    obtain ⟨⟨⟩, L, lowered, closed⟩ := bind_ok.mp done
    split at made
    · cases made
      have standing := standing_initial function
      have standing' := standing.after (sparesStmts host · function.body) lowered
      have concluded := concludesStmts host function function.body accepted _ _ _ standing lowered
      refine ⟨F, rfl, ?_⟩
      rcases unlessTerminated_ok.mp closed with ⟨terminated, rfl⟩ | ⟨free, closed⟩
      · refine ⟨standing'.inside.pos, fun last isLast => ?_⟩
        simp [endBlock, lowered, terminated] at isLast
      · obtain ⟨-, rfl⟩ := terminate_ok.mp closed
        refine ⟨standing'.inside.pos, fun last isLast => ?_⟩
        obtain rfl : L.current = last := by simpa [endBlock, lowered, free] using isLast
        rcases concluded with terminated | dead
        · rw [free] at terminated
          cases terminated
        · refine ⟨standing'.inside, by rw [Lowerer.close_blocks_self, dead.empty], ?_⟩
          refine dead.doomed.mono le_rfl le_rfl fun j _ _ b leads => ?_
          exact (Spared.close (by simp [successors])).enters b leads
    · cases made
  · cases made
  · cases made

/-- **A lowered body falls off its end exactly when it has tested an Error from which only
jumps lead there.** -/
theorem fallsOff_iff (made : lowerFunction machine.runtime.host function = .ok blocks)
    (accepted : checkBlock function false function.body = .ok true) :
    FallsOff machine lowered function blocks fuel arguments store ↔
      ∃ last c, endBlock machine.runtime.host function = some last ∧
        Reaches machine lowered function blocks fuel arguments store c ∧
        ErrorExit blocks last c := by
  obtain ⟨F, rfl, some0, ends⟩ := lowered_end made accepted
  constructor
  · rintro ⟨last, c, isLast, here, c₀, begins, run⟩
    obtain ⟨-, -, doomed⟩ := ends last isLast
    obtain ⟨b, -, zero, rfl⟩ := enterBlock_running begins
    obtain rfl : b = 0 := by exact_mod_cast zero.symm
    obtain ⟨b, -, block⟩ := run_block ⟨0, some0, rfl⟩ run
    obtain rfl : b = last := by
      rw [block] at here
      have same : (b : Int) = last := here
      exact_mod_cast same
    obtain ⟨earlier, run', exit⟩ := errorExit_of_doomed rfl rfl some0 run doomed block
    exact ⟨b, earlier, isLast, ⟨_, begins, run'⟩, exit⟩
  · rintro ⟨last, c, isLast, ⟨c₀, begins, run⟩, exit⟩
    obtain ⟨inside, -, -⟩ := ends last isLast
    obtain ⟨frame, s, more⟩ := run_of_errorExit machine (Mir.call machine fuel) lowered.key exit
      (findBlock_freeze inside)
    exact ⟨last, _, isLast, rfl, c₀, begins, run.trans more⟩

section

variable (completed : runSteps machine (Mir.call machine fuel) lowered.key blocks fuel (bodyStart
  function blocks arguments store) = .ok result store')

include completed

theorem call_completed
    (entered : Entered machine key name lowered function blocks arguments store bindings) :
    Mir.call machine (fuel + 1) key name arguments store =
      (checkReturn machine.runtime { signature function with blocks := blocks } bindings
        result).finallyDo (fun s => { s with depth := s.depth - 1 }) store' := by
  have arity : ¬arguments.length ≠ (signature function).parameters.length :=
    not_not.mpr (by simpa [signature] using entered.arity)
  have found : (lift (machine.graph.moduleFunction key name) :
      Exec σ (MirModule × MirFunction)) store =
        .ok (lowered, { signature function with blocks := blocks }) store := by
    rw [entered.found]
    rfl
  have checked : (do
      Comp.modify fun store : Store σ => { store with depth := store.depth + 1 }
      let result ← fun store => runSteps machine (Mir.call machine fuel) lowered.key blocks fuel
        (enterBlock blocks 0 (initialFrame (signature function).parameters arguments) store)
      checkReturn machine.runtime { signature function with blocks := blocks } bindings result :
        Exec σ Value) store =
      checkReturn machine.runtime { signature function with blocks := blocks } bindings result
        store' :=
    (Comp.bind_of_ok rfl).trans (Comp.bind_of_ok completed)
  refine (Comp.bind_of_ok found).trans ?_
  dsimp only
  rw [if_neg arity]
  refine (Comp.bind_of_ok entered.passed).trans ?_
  rw [withState_apply, if_neg (not_le.mpr entered.shallow)]
  unfold runBody Comp.finallyDo
  rw [← checked]

omit completed in
theorem checkReturn_cases (machine : Machine σ) (function : FunctionDeclaration)
    (blocks : List BasicBlock) (bindings : TypeBindings) (result : Value) (s : Store σ) :
    MatchesReturn machine function bindings s.host result ∧
        checkReturn machine.runtime { signature function with blocks := blocks } bindings result s =
          .ok result s ∨
      ¬MatchesReturn machine function bindings s.host result ∧ ∃ fault s',
        checkReturn machine.runtime { signature function with blocks := blocks } bindings result s =
          .raise fault s' := by
  unfold MatchesReturn checkReturn
  simp only [signature, ask, bind_apply, andThen]
  cases (machine.runtime.matchesType s.host result function.returnType.runtimeNames
    function.typeParameters bindings).1 with
  | true => simp
  | false =>
    right
    refine ⟨by simp, ?_⟩
    by_cases plain : function.typeParameters.isEmpty = true
    · simp [plain, ask, andThen]
    · simp [plain]

theorem call_hands
    (entered : Entered machine key name lowered function blocks arguments store bindings) :
    (∃ s, Mir.call machine (fuel + 1) key name arguments store = .ok result s) ↔
      MatchesReturn machine function bindings store'.host result := by
  rw [call_completed completed entered]
  unfold Comp.finallyDo
  rcases checkReturn_cases machine function blocks bindings result store' with
    ⟨holds, handed⟩ | ⟨fails, fault, s', refused⟩
  · rw [handed]
    exact ⟨fun _ => holds, fun _ => ⟨_, rfl⟩⟩
  · rw [refused]
    refine ⟨?_, fun holds => absurd holds fails⟩
    rintro ⟨s, handed⟩
    cases handed

/-- **When the executor keeps a declared return type.** A call whose body is done hands the
result to its caller, and not unit from the end of the body, exactly when the run is in
order. -/
theorem executor_keeps_iff {written : List String} (declared : function.returnNames = some written)
    (accepted : checkFunction function = .ok ())
    (entered : Entered machine key name lowered function blocks arguments store bindings) :
    ((∃ s, Mir.call machine (fuel + 1) key name arguments store = .ok result s) ∧
        ¬FallsOff machine lowered function blocks fuel arguments store) ↔
      LoweredInOrder machine lowered function blocks fuel arguments store bindings := by
  have reached : ∃ c, Reaches machine lowered function blocks fuel arguments store c ∧
      step machine (Mir.call machine fuel) lowered.key blocks c = .returned result store' := by
    rcases runSteps_ok completed with returned | ⟨c₀, c, begins, run, returned⟩
    · unfold bodyStart enterBlock at returned
      split at returned <;> cases returned
    · exact ⟨c, ⟨c₀, begins, run⟩, returned⟩
  rw [call_hands completed entered, fallsOff_iff entered.made (checkFunction_ok declared accepted)]
  constructor
  · rintro ⟨holds, noExit⟩
    refine ⟨fun last c isLast reaches exit => noExit ⟨last, c, isLast, reaches, exit⟩, ?_⟩
    rintro c value s ⟨c₀, begins, run⟩ returned
    obtain ⟨c', ⟨c₀', begins', run'⟩, returned'⟩ := reached
    rw [begins] at begins'
    cases begins'
    obtain ⟨rfl, rfl⟩ := returned_unique run run' returned returned'
    exact holds
  · intro order
    obtain ⟨c, reaches, returned⟩ := reached
    refine ⟨order.returns c result store' reaches returned, ?_⟩
    rintro ⟨last, c, isLast, reaches, exit⟩
    exact order.errors last c isLast reaches exit

end

end Executor

/-! ## Both lanes -/

/-- The lowered form of a function with one `return`. -/
def returningBlocks : List BasicBlock := [⟨0, [.const 0 (.int 1) (.named "Int")], .ret (some 0)⟩]

def returningModule : MirModule :=
  ⟨"main", "main", [], [{ signature returning with blocks := returningBlocks }]⟩

/-- An if statement at the end of the body whose condition overflows for the largest Int. -/
def overflowing : FunctionDeclaration where
  name := "main"
  typeParameters := []
  parameters := [⟨"a", ["Int"], .named "Int"⟩]
  returnNames := some ["Int"]
  returnType := .named "Int"
  body := [.ifThen (.mk
    (.binary (.binary (.ident "a" (.named "Int")) .add (intLiteral 1) (.named "Int")) .gt
      (intLiteral 0) .bool)
    [.ret (some (intLiteral 1))] (.block [.ret (some (intLiteral 2))]))]

/-- The code of the fault a run ends with. -/
def faultCode : Outcome Fault (Store σ) Value → Option String
  | .raise fault _ => some fault.code
  | _ => none

/-- A call of `main` in the executor, after lowering. -/
def executeWith (setting : Setting Output) (fuel : Nat) (arguments : List Value) :
    Outcome Fault (Store Output) Value :=
  match lowerGraph setting.runtime.host setting.program with
  | .ok graph => Mir.call ⟨setting.runtime, graph⟩ fuel "main" "main" arguments emptyStore
  | .error message => .raise ⟨"KS5002", message⟩ emptyStore

end Koschei.Integrity
