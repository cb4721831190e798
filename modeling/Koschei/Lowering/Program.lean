import Koschei.Ast.Careful
import Koschei.Lowering.Faithful
import Koschei.Lib.Pointwise

/-!
# Lowered programs

A program is lowered function by function, and its graph is run by the executor.
What the lowered lane computes on the tree of a function, the executor computes
on its blocks: the body first, from the parameters to the `return` it ends with,
then whole calls, along the nesting of calls.

The names have to be apart. The executor has one flat table for the locals of a
call, and reads a name that no open scope has from the same table before it looks
at anything global. A local that is named like a function, a constructor, a
builtin or an import would be found there after its scope is closed.
-/

namespace Koschei.Lowering

open Lib Ast Mir Filter Relation

variable {σ α β : Type}

/-! ## Names -/

def globalName (setting : Setting σ) (module : Module) (name : String) : Bool :=
  Context.isGlobal ⟨setting.runtime, setting.inference, Lane.lowered, setting.program, module,
    fun _ _ _ => timeout⟩ name

/-- The names a function declares: its parameters and the locals of its body. -/
def declaredNames (function : FunctionDeclaration) : List String :=
  function.parameters.map Parameter.name ++ declaredStmts function.body

/-- The parameters are distinct, and nothing that is declared has a global name. -/
structure WellNamed (setting : Setting σ) (module : Module) (function : FunctionDeclaration) :
    Prop where
  distinct : (function.parameters.map Parameter.name).Nodup
  apart : ∀ name ∈ declaredNames function, globalName setting module name = false

/-- No global name of a module has the character that marks the names lowering makes up. -/
def SourceNamed (setting : Setting σ) (module : Module) : Prop :=
  ∀ name, Generated name → globalName setting module name = false

/-- The names of a program are apart: no function declares a name that is global in its
module. -/
def NamesApart (setting : Setting σ) : Prop :=
  ∀ module ∈ setting.program.modules, SourceNamed setting module ∧
    ∀ function ∈ module.functions, WellNamed setting module function

/-! ## Looking up a lowered function -/

variable {host : Host} {function : FunctionDeclaration}

theorem lowerDeclaration_ok
    {lowered : MirFunction} (done : lowerDeclaration host function = .ok lowered) :
    ∃ blocks, lowerFunction host function = .ok blocks ∧
      lowered = { signature function with blocks := blocks } := by
  unfold lowerDeclaration at done
  split at done
  · rename_i blocks made
    cases done
    exact ⟨blocks, made, rfl⟩
  · cases done

variable {module : Module} {lowered : MirModule}

theorem lowerModule_ok (done : lowerModule host module = .ok lowered) :
    lowered.key = module.key ∧ lowered.imports = module.imports ∧
      Forall₂ (fun function made => lowerDeclaration host function = .ok made)
        module.functions lowered.functions := by
  unfold lowerModule at done
  split at done
  · rename_i functions made
    cases done
    exact ⟨rfl, rfl, mapM_forall₂ made⟩
  · cases done

variable {program : Program} {graph : MirGraph}

theorem lowerGraph_ok (done : lowerGraph host program = .ok graph) :
    Forall₂ (fun module made => lowerModule host module = .ok made)
      program.modules graph.modules := by
  unfold lowerGraph at done
  split at done
  · rename_i modules made
    cases done
    exact mapM_forall₂ made
  · cases done

/-- A function of a program, and what its graph has for it. -/
structure LoweredAs (host : Host) (graph : MirGraph) (program : Program) (key name : String)
    (module : Module) (function : FunctionDeclaration) (lowered : MirModule)
    (blocks : List BasicBlock) : Prop where
  member : module ∈ program.modules ∧ function ∈ module.functions
  keys : module.key = key ∧ lowered.key = key
  imports : lowered.imports = module.imports
  functions : ∀ name, (lowered.functions.any fun function => function.name == name) =
    module.functions.any fun function => function.name == name
  known : graph.moduleOf key = .ok lowered
  found : graph.moduleFunction key name =
    .ok (lowered, { signature function with blocks := blocks })
  made : lowerFunction host function = .ok blocks

theorem moduleFunction_lowered (done : lowerGraph host program = .ok graph) {key name : String}
    (found : program.moduleFunction key name = .ok (module, function)) :
    ∃ lowered blocks, LoweredAs host graph program key name module function lowered blocks := by
  obtain ⟨inProgram, inModule⟩ := Program.moduleFunction_ok found
  have modules := lowerGraph_ok done
  obtain ⟨lowered, madeModule, foundModule⟩ := find_forall₂ modules
    (q := fun module => module.key == key)
    (fun x y made => by rw [(lowerModule_ok made).1]) inProgram
  obtain ⟨sameKey, imports, functions⟩ := lowerModule_ok madeModule
  have names (x : FunctionDeclaration) (y : MirFunction)
      (made : lowerDeclaration host x = .ok y) : y.name = x.name := by
    obtain ⟨blocks, -, rfl⟩ := lowerDeclaration_ok made
    rfl
  obtain ⟨made, madeFunction, foundFunction⟩ := find_forall₂ functions
    (q := fun function => function.name == name)
    (fun x y made => by rw [names x y made]) inModule
  obtain ⟨blocks, loweredBlocks, rfl⟩ := lowerDeclaration_ok madeFunction
  have ownKey : module.key = key := by simpa using find?_some inProgram
  have known : graph.moduleOf key = .ok lowered := by
    simp only [MirGraph.moduleOf, foundModule]
  refine ⟨lowered, blocks, ⟨mem_of_find?_eq_some inProgram,
    mem_of_find?_eq_some inModule⟩, ⟨ownKey, sameKey.trans ownKey⟩, imports,
    fun other => any_forall₂ functions fun x y made => by rw [names x y made], known,
    ?_, loweredBlocks⟩
  simp only [MirGraph.moduleFunction, known, Bind.bind, Except.bind, foundFunction]

/-! ## The start of a function -/

section Start

variable {function : FunctionDeclaration}

/-- The scope of the parameters. -/
def parameterLinks (function : FunctionDeclaration) : List (String × String) :=
  (function.parameters.map fun parameter => (parameter.name, parameter.name)).reverse

theorem visible_initial (function : FunctionDeclaration) :
    visible (initialLowerer function) = (function.parameters.map Parameter.name).reverse := by
  simp [visible, initialLowerer, map_reverse, Function.comp_def]

theorem ready_initial (distinct : (function.parameters.map Parameter.name).Nodup) :
    Ready (initialLowerer function) where
  free := rfl
  inside := Nat.zero_lt_one
  lexical := {
    nonempty := cons_ne_nil _ _
    nodup := by
      rw [visible_initial]
      exact List.nodup_reverse.mpr distinct
    used := by
      rw [visible_initial]
      exact fun name inside => mem_reverse.mp inside }

theorem lookup_zip {names : List String} (distinct : names.Nodup) {values : List Value}
    {name : String} {value : Value} (paired : (name, value) ∈ names.zip values) :
    (names.zip values).reverse.lookup name = some value := by
  have unique : ∀ entry ∈ (names.zip values).reverse, entry.1 = name → entry.2 = value := by
    rintro ⟨other, value'⟩ inside rfl
    obtain ⟨i, inI, here⟩ := List.getElem_of_mem (mem_reverse.mp inside)
    obtain ⟨j, inJ, there⟩ := List.getElem_of_mem paired
    simp only [List.getElem_zip, Prod.mk.injEq] at here there
    have same : i = j := distinct.getElem_inj_iff.mp (here.1.trans there.1.symm)
    subst same
    exact here.2.symm.trans there.2
  cases found : (names.zip values).reverse.lookup name with
  | none =>
    have missing := lookup_eq_none_iff.mp found (name, value) (mem_reverse.mpr paired)
    simp at missing
  | some value' =>
    obtain ⟨before, after, whole, -⟩ := lookup_eq_some_iff.mp found
    have inside : (name, value') ∈ (names.zip values).reverse := by simp [whole]
    rw [← unique _ inside rfl]

/-- A call starts with its parameters in the scope and in the table. -/
theorem linked_initial (distinct : (function.parameters.map Parameter.name).Nodup)
    {arguments : List Value} (arity : arguments.length = function.parameters.length)
    {final : Lowerer} (used : (initialLowerer function).used ⊆ final.used)
    {state : State σ} {store : Store σ} (alike : Alike state.store store)
    (scopes : state.scopes = [parameterScope function.parameters arguments]) :
    Linked final [parameterLinks function] state
      (initialFrame (signature function).parameters arguments) store where
  scopes := by
    rw [scopes]
    refine .cons ?_ .nil
    unfold parameterScope parameterLinks
    rw [List.forall₂_reverse_iff, List.forall₂_map_left_iff]
    rw [List.forall₂_iff_get]
    refine ⟨by simp [arity], ?_⟩
    intro i inside inside'
    refine ⟨by simp, ?_⟩
    have paired := lookup_zip distinct (List.get_mem
      ((function.parameters.map Parameter.name).zip arguments) ⟨i, inside⟩)
    simp only [List.get_eq_getElem, List.getElem_zip, getElem_map] at paired ⊢
    simp only [initialFrame, initialBindings, signature, map_map, Function.comp_def, paired,
      map_some]
  host := alike.host
  depth := alike.depth
  unbound name unused := by
    have missing : ((function.parameters.map Parameter.name).zip arguments).reverse.lookup name =
        none := by
      refine lookup_eq_none_iff.mpr ?_
      rintro ⟨other, value⟩ inside
      have named := (of_mem_zip (mem_reverse.mp inside)).1
      refine bne_iff_ne.mpr ?_
      rintro rfl
      exact unused (used named)
    simp only [initialFrame, initialBindings, signature, map_map, Function.comp_def, missing,
      map_none]

end Start

/-! ## The end of a function -/

variable {blocks : List BasicBlock}

/-- The blocks of a function are those of a lowerer that has run through its body and
has closed what was left open with a `return`. -/
theorem lowerFunction_ok (made : lowerFunction host function = .ok blocks) :
    ∃ M final, lowerStmts host function.body (initialLowerer function) = .ok () M ∧
      blocks = freeze final ∧ final.used = M.used ∧ Embeds M final ∧
      (M.terminated = false → Embeds (M.close (.ret none)) final) := by
  unfold lowerFunction at made
  split at made
  · rename_i u final done
    obtain ⟨⟨⟩, M, lowered, closed⟩ := bind_ok.mp done
    split at made
    · cases made
      refine ⟨M, final, lowered, rfl, ?_⟩
      rcases unlessTerminated_ok.mp closed with ⟨terminated, rfl⟩ | ⟨free, closed⟩
      · refine ⟨rfl, .refl _, fun free => ?_⟩
        rw [terminated] at free
        cases free
      · obtain ⟨-, rfl⟩ := terminate_ok.mp closed
        exact ⟨rfl, (Embeds.refl M).close free _, fun _ => .refl _⟩
    · cases made
  · cases made
  · cases made

/-- The executor at the end of a function: the next step hands out the value, every cell of
the open scopes is the binding the flat table has for it, and the objects are kept. -/
structure Ends (site : Site σ) (objects : List Object) (value : Value) (state : State σ)
    (c : Config σ) : Prop where
  returns : site.Returns value c.store c
  linked : ∃ Γ, Linked site.final Γ state c.frame c.store
  objects : objects <+: c.store.objects

/-! ## The body of a function -/

section Body

variable {setting : Setting σ} {graph : MirGraph} {key name : String} {module : Module}
  {function : FunctionDeclaration} {lowered : MirModule} {blocks : List BasicBlock}

def functionSite (setting : Setting σ) (graph : MirGraph) (key : String) (final : Lowerer) :
    Site σ :=
  ⟨⟨setting.runtime, graph⟩, key, Mir.call ⟨setting.runtime, graph⟩, final⟩

/-- Where the tree of a function is evaluated as lowered code. -/
def loweredContext (setting : Setting σ) (module : Module) (call : Caller σ) : Context σ :=
  ⟨setting.runtime, setting.inference, Lane.lowered, setting.program, module, call⟩

theorem hosts_function {final M : Lowerer} {call : Caller σ}
    (found : LoweredAs setting.runtime.host graph setting.program key name module function
      lowered blocks)
    (wellNamed : WellNamed setting module function)
    (lowers : lowerStmts setting.runtime.host function.body (initialLowerer function) = .ok () M)
    (used : final.used = M.used) (source : SourceNamed setting module)
    (answers : Answers call (Mir.call ⟨setting.runtime, graph⟩)) :
    Hosts (functionSite setting graph key final) (loweredContext setting module call) where
  runtime := rfl
  lane := rfl
  key := found.keys.1
  module := ⟨lowered, found.known, found.functions, found.imports⟩
  answers := answers
  apart other inside := by
    have grown := lowersStmts (P := fun name => globalName setting module name = false)
      setting.runtime.host source function.body
      (fun name inside => wellNamed.apart name (mem_append_right _ inside))
      _ _ _ lowers (ready_initial wellNamed.distinct)
    change other ∈ final.used at inside
    rw [used] at inside
    rcases grown.names other inside with parameter | apart
    · exact wellNamed.apart other (mem_append_left _ parameter)
    · exact apart

/-- **The flat table says what the scopes say.** The body of a function is evaluated on a
stack of scopes, the executor runs its blocks with one flat table. When the evaluation
ends, by falling off the end or by a `return`, the executor gets to the same end. -/
theorem body_leads
    (found : LoweredAs setting.runtime.host graph setting.program key name module function
      lowered blocks)
    (wellNamed : WellNamed setting module function) (source : SourceNamed setting module)
    {call : Caller σ} (answers : Answers call (Mir.call ⟨setting.runtime, graph⟩))
    {arguments : List Value} (arity : arguments.length = function.parameters.length)
    {state : State σ} {store : Store σ} (alike : Alike state.store store)
    (scopes : state.scopes = [parameterScope function.parameters arguments]) (fuel : Nat) :
    ∃ final, blocks = freeze final ∧ 0 < final.nextBlock ∧
      (∀ name ∈ final.used, globalName setting module name = false) ∧
      Leads (functionSite setting graph key final).next
        (Ends (functionSite setting graph key final) store.objects) (fun _ _ _ => True)
        ((functionSite setting graph key final).start 0
          (initialFrame (signature function).parameters arguments) store)
        (bodyResult (loweredContext setting module call)
          (meaning (loweredContext setting module call) fuel) function.body state) := by
  obtain ⟨M, final, lowers, rfl, used, embeds, closes⟩ := lowerFunction_ok found.made
  have hosts := hosts_function found wellNamed lowers used source answers
  have ready := ready_initial wellNamed.distinct
  have inBody : ∀ name ∈ declaredStmts function.body, globalName setting module name = false :=
    fun name inside => wellNamed.apart name (mem_append_right _ inside)
  have grown := lowersStmts setting.runtime.host source function.body inBody _ _ _ lowers ready
  have linked := linked_initial wellNamed.distinct arity
    (Subset.trans grown.used embeds.used) alike scopes
  have runs := ((meaning_faithful hosts source fuel).stmts source function.body inBody .unit).runs
    _ _ _ lowers ready embeds (parameterLinks function) [] state _ store rfl linked
  refine ⟨final, rfl, Nat.zero_lt_of_lt (grown.inside.trans_le embeds.blocks), hosts.apart, ?_⟩
  have falls : Leads (functionSite setting graph key final).next
      (Ends (functionSite setting graph key final) store.objects)
      (Exits (functionSite setting graph key final)
        ⟨initialLowerer function, initialFrame (signature function).parameters arguments, store⟩
        [])
      ((functionSite setting graph key final).start 0
        (initialFrame (signature function).parameters arguments) store)
      ((do
        let _ ← executeStatements (meaning (loweredContext setting module call) fuel)
          function.body .unit
        pure .unit : Eval σ Value) state) := by
    refine runs.bind ?_ fun _ _ _ exit => exit
    rintro value state' _ ⟨head, frame', store', rfl, there⟩
    exact .here ⟨Site.returns_unit (closes there.ready.free) there.ready.inside,
      ⟨_, there.linked⟩, there.keeps.objects⟩
  refine falls.handle (fun _ _ _ ends => ends) ?_
  intro signal state' c exit
  cases signal with
  | ret value => exact .here ⟨exit.2, ⟨_, exit.1.1.choose_spec⟩, exit.1.2.objects⟩
  | _ => exact .leave trivial

end Body

/-! ## Runs -/

variable {site : Site σ} {c c' : Config σ}

theorem runSteps_of_steps (steps : ReflTransGen site.next c c') :
    ∃ count, ∀ᶠ fuel in atTop, ∀ more,
      runSteps site.machine (site.calls fuel) site.moduleKey (freeze site.final) (more + count)
          (.running c) =
        runSteps site.machine (site.calls fuel) site.moduleKey (freeze site.final) more
          (.running c') := by
  induction steps using ReflTransGen.head_induction_on with
  | refl => exact ⟨0, .of_forall fun _ _ => rfl⟩
  | head first rest ih =>
    obtain ⟨count, ih⟩ := ih
    refine ⟨count + 1, ?_⟩
    filter_upwards [first, ih] with fuel stepped ih more
    rw [← Nat.add_assoc, runSteps, stepped]
    exact ih more

theorem runSteps_returns {value : Value}
    (steps : ReflTransGen site.next c c') (returns : site.Returns value c'.store c') :
    ∀ᶠ fuel in atTop, runSteps site.machine (site.calls fuel) site.moduleKey
      (freeze site.final) fuel (.running c) = .ok value c'.store := by
  obtain ⟨count, runs⟩ := runSteps_of_steps steps
  filter_upwards [runs, eventually_ge_atTop (count + 1)] with fuel runs enough
  obtain ⟨more, split⟩ : ∃ more, fuel = more + 1 + count := ⟨fuel - (count + 1), by omega⟩
  have run := runs (more + 1)
  rw [← split, runSteps, returns] at run
  rw [run]
  cases more <;> rfl

/-! ## Calls -/

theorem checkArguments_shared (runtime : Runtime σ) (function : MirFunction)
    (entries : List ((String × TypeNode) × Value)) (bindings : TypeBindings) :
    Shared (checkArguments runtime function entries bindings) := by
  induction entries generalizing bindings with
  | nil => exact .pure _
  | cons entry rest ih =>
    refine Shared.bind (.ask _) fun matched => ?_
    exact Shared.ite (ih _) (Shared.ite (.raise _) (.raise _))

theorem checkReturn_shared (runtime : Runtime σ) (function : MirFunction)
    (bindings : TypeBindings) (result : Value) :
    Shared (checkReturn runtime function bindings result) := by
  refine Shared.bind (.ask _) fun matched => ?_
  exact Shared.ite (.pure _) (Shared.ite (Shared.bind (.ask _) fun _ => .raise _) (.raise _))

theorem checkArguments_store {runtime : Runtime σ} {function : MirFunction}
    {entries : List ((String × TypeNode) × Value)} {bindings bindings' : TypeBindings}
    {s s' : Store σ} (done : checkArguments runtime function entries bindings s = .ok bindings' s') :
    s' = s := by
  induction entries generalizing bindings with
  | nil =>
    cases done
    rfl
  | cons entry rest ih =>
    simp only [checkArguments, bind_apply] at done
    obtain ⟨matched, s₁, asked, done⟩ := andThen_eq_ok.mp done
    cases asked
    split at done
    · exact ih done
    · split at done
      · cases done
      · cases done

/-- The checks read the signature only. -/
theorem checkArguments_blocks (runtime : Runtime σ) (function : MirFunction)
    (blocks : List BasicBlock) (entries : List ((String × TypeNode) × Value))
    (bindings : TypeBindings) :
    checkArguments runtime { function with blocks := blocks } entries bindings =
      checkArguments runtime function entries bindings := by
  induction entries generalizing bindings with
  | nil => rfl
  | cons entry rest ih =>
    unfold checkArguments
    simp only [ih]

section Call

variable {setting : Setting σ} {graph : MirGraph} {module : Module} {call : Caller σ}
  {m : Meaning σ} {function : FunctionDeclaration} {arguments : List Value}
  {state state' : State σ} {value : Value}

/-- What a completed call of lowered code went through. -/
theorem callBody_ok
    (done : callBody setting (loweredContext setting module call) m function arguments state =
      .ok value state') :
    arguments.length = function.parameters.length ∧ ∃ bindings result middle s',
        loweredArguments setting function arguments state.store = .ok bindings state.store ∧
        state.store.depth < maxCallDepth ∧
        bodyResult (loweredContext setting module call) m function.body
          (changeDepth (· + 1) state) = .ok result middle ∧
        checkReturn setting.runtime (signature function) bindings result middle.store =
          .ok value s' ∧
        state' = changeDepth (· - 1) { middle with store := s' } := by
  unfold callBody at done
  split at done
  · cases done
  · rename_i arity
    refine ⟨not_not.mp arity, ?_⟩
    simp only [withState_apply, bind_apply] at done
    obtain ⟨u, state₁, checked, done⟩ := andThen_eq_ok.mp done
    change exec _ state = .ok u state₁ at checked
    cases passed : loweredArguments setting function arguments state.store with
    | timeout => simp [exec, passed, andThen] at checked
    | raise fault s => simp [exec, passed, andThen] at checked
    | ok bindings s =>
      obtain rfl := checkArguments_store passed
      have same : state₁ = state := by
        simp only [exec, bind_apply, passed, andThen, pure_apply,
          Outcome.ok.injEq, true_and] at checked
        exact checked.symm
      subst same
      simp only [passed, Outcome.resultD] at done
      split at done
      · cases done
      · rename_i shallow
        unfold Comp.finallyDo at done
        split at done
        · rename_i value' state₂ ran
          cases done
          simp only [bind_apply, Comp.modify_apply, andThen] at ran
          obtain ⟨result, middle, body, returned⟩ := andThen_eq_ok.mp ran
          change exec _ middle = .ok value state₂ at returned
          unfold exec at returned
          split at returned
          · rename_i value' s' checks
            cases returned
            exact ⟨bindings, result, middle, s', rfl, not_le.mp shallow, body, checks, rfl⟩
          · cases returned
          · cases returned
        · cases done
        · cases done

/-- No `return` leaves an evaluation. -/
def Returnless (x : Eval σ α) : Prop := ∀ s value s', x s ≠ .raise (.ret value) s'

namespace Returnless

theorem exec (x : Exec σ α) : Returnless (Ast.exec x) := by
  intro s value s' raised
  unfold Ast.exec at raised
  split at raised <;> cases raised

variable {x : Eval σ α}

theorem bind {f : α → Eval σ β} (first : Returnless x)
    (rest : ∀ a, Returnless (f a)) : Returnless (x >>= f) := by
  intro s value s' raised
  rw [bind_apply] at raised
  cases ran : x s with
  | ok a s₁ =>
    rw [ran] at raised
    exact rest a _ _ _ raised
  | raise signal s₁ =>
    rw [ran] at raised
    cases raised
    exact first _ _ _ ran
  | timeout =>
    rw [ran] at raised
    cases raised

theorem finallyDo (body : Returnless x) (undo : State σ → State σ) :
    Returnless (x.finallyDo undo) := by
  intro s value s' raised
  unfold Comp.finallyDo at raised
  split at raised
  · cases raised
  · rename_i ran
    cases raised
    exact body _ _ _ ran
  · cases raised

theorem bodyResult (context : Context σ) (m : Meaning σ) (body : List Stmt) :
    Returnless (Ast.bodyResult context m body) := by
  intro s value s' raised
  unfold Ast.bodyResult Comp.handle at raised
  split at raised
  · cases raised
  · rename_i signal s₁ ran
    cases signal <;> cases raised
  · cases raised

end Returnless

/-- A call never ends with a `return` that nobody has taken. -/
theorem callBody_returnless :
    Returnless (callBody setting (loweredContext setting module call) m function arguments) := by
  intro s value s'
  unfold callBody
  split
  · intro raised
    cases raised
  · refine Returnless.bind (.exec _) (fun _ => ?_) s value s'
    split
    · exact fun _ _ _ raised => by cases raised
    · refine .finallyDo (.bind (fun _ _ _ raised => by cases raised) fun _ =>
        .bind (.bodyResult _ _ _) fun result => .exec _) _

variable {fuel : Nat} {key name : String} {s s' t : Store σ}

theorem callFunction_ok
    (done : callFunction Lane.lowered setting fuel key name arguments s = .ok value s') :
    ∃ less module function state', fuel = less + 1 ∧
      setting.program.moduleFunction key name = .ok (module, function) ∧
      callBody setting
        (loweredContext setting module (callFunction Lane.lowered setting less))
        (meaning (loweredContext setting module (callFunction Lane.lowered setting less)) less)
        function arguments ⟨s, [parameterScope function.parameters arguments]⟩ =
          .ok value state' ∧ s' = state'.store := by
  cases fuel with
  | zero => cases done
  | succ less =>
    unfold callFunction at done
    cases found : setting.program.moduleFunction key name with
    | error fault =>
      rw [found] at done
      cases done
    | ok pair =>
      obtain ⟨module, function⟩ := pair
      rw [found] at done
      simp only [asCall] at done
      split at done
      · rename_i value' state' ran
        cases done
        exact ⟨less, module, function, state', rfl, rfl, ran, rfl⟩
      · cases done
      · rename_i value' state' ran
        exact absurd ran (callBody_returnless _ _ _)
      · cases done
      · cases done
      · cases done

theorem callFunction_silent {fault : Fault} :
    callFunction Lane.lowered setting fuel key name arguments s ≠ .raise fault s' := by
  intro raised
  cases fuel with
  | zero => cases raised
  | succ less =>
    unfold callFunction at raised
    cases found : setting.program.moduleFunction key name with
    | error fault =>
      rw [found] at raised
      cases raised
    | ok pair =>
      rw [found] at raised
      simp only [asCall] at raised
      split at raised <;> cases raised

/-- A call of the executor, from its parts. -/
theorem call_of_run {machine : Machine σ}
    {made : MirFunction} {bindings : TypeBindings} {result : Value} {t t₁ t₂ : Store σ}
    (found : machine.graph.moduleFunction key name = .ok (lowered, made))
    (arity : arguments.length = made.parameters.length)
    (passed : checkArguments machine.runtime made (made.parameters.zip arguments)
      (if made.typeParameters.isEmpty then none else some []) t = .ok bindings t)
    (shallow : t.depth < maxCallDepth)
    (ran : runSteps machine (Mir.call machine fuel) lowered.key made.blocks fuel
      (enterBlock made.blocks 0 (initialFrame made.parameters arguments)
        { t with depth := t.depth + 1 }) = .ok result t₁)
    (checks : checkReturn machine.runtime made bindings result t₁ = .ok value t₂) :
    Mir.call machine (fuel + 1) key name arguments t =
      .ok value { t₂ with depth := t₂.depth - 1 } := by
  have body : runBody machine (Mir.call machine fuel) lowered.key made bindings fuel arguments t =
      .ok value { t₂ with depth := t₂.depth - 1 } := by
    unfold runBody
    refine Comp.finallyDo_ok (t := t₂) _ ?_
    rw [bind_apply, Comp.modify_apply]
    exact andThen_eq_ok.mpr ⟨(), _, rfl, andThen_eq_ok.mpr ⟨result, t₁, ran, checks⟩⟩
  refine andThen_eq_ok.mpr ⟨(lowered, made), t, by rw [found]; rfl, ?_⟩
  dsimp only
  rw [if_neg (not_not.mpr arity)]
  refine andThen_eq_ok.mpr ⟨bindings, t, passed, ?_⟩
  rw [withState_apply, if_neg (not_le.mpr shallow)]
  exact body

theorem call_mirrors
    (found : LoweredAs setting.runtime.host graph setting.program key name module function
      lowered blocks)
    (wellNamed : WellNamed setting module function) (source : SourceNamed setting module)
    (answers : Answers call (Mir.call ⟨setting.runtime, graph⟩)) (alike : Alike s t)
    (done : callBody setting (loweredContext setting module call)
      (meaning (loweredContext setting module call) fuel) function arguments
      ⟨s, [parameterScope function.parameters arguments]⟩ = .ok value state') :
    ∃ t', Alike state'.store t' ∧ t.objects <+: t'.objects ∧
      ∀ᶠ fuel in atTop, Mir.call ⟨setting.runtime, graph⟩ fuel key name arguments t =
        .ok value t' := by
  obtain ⟨arity, bindings, result, middle, s', passed, shallow, body, checks, rfl⟩ :=
    callBody_ok done
  have alike₁ : Alike (changeDepth (· + 1)
      ⟨s, [parameterScope function.parameters arguments]⟩ : State σ).store
      { t with depth := t.depth + 1 } := ⟨alike.host, by simp [changeDepth, alike.depth]⟩
  obtain ⟨final, rfl, made, -, leads⟩ := body_leads found wellNamed source answers arity alike₁ rfl
    fuel
  rw [body] at leads
  obtain ⟨c, steps, ends⟩ := leads
  obtain ⟨Γ, linked⟩ := ends.linked
  obtain ⟨t₂, alike₂, kept, checks'⟩ := checkReturn_shared setting.runtime (signature function)
    bindings result middle.store c.store value s' ⟨linked.host, linked.depth⟩ checks
  obtain ⟨t₁, -, -, passed'⟩ := checkArguments_shared setting.runtime (signature function) _ _
    s t bindings s alike passed
  obtain ⟨_, passed'⟩ := passed'.exists
  obtain rfl := checkArguments_store passed'
  obtain ⟨_, checks'⟩ := checks'.exists
  refine ⟨{ t₂ with depth := t₂.depth - 1 }, ⟨alike₂.host, by simp [changeDepth, alike₂.depth]⟩,
    ends.objects.trans kept, ?_⟩
  have runs := runSteps_returns steps ends.returns
  have called : ∀ᶠ fuel in atTop, Mir.call ⟨setting.runtime, graph⟩ (fuel + 1) key name arguments
      t₁ = .ok value { t₂ with depth := t₂.depth - 1 } := by
    filter_upwards [runs] with fuel ran
    refine call_of_run found.found (by simpa [signature] using arity) ?_ (by
      rw [alike.depth]; exact shallow) ?_ checks'
    · rw [checkArguments_blocks]
      exact passed'
    · rw [found.keys.2]
      have entered : enterBlock (freeze final) 0
          (initialFrame (signature function).parameters arguments)
          { t₁ with depth := t₁.depth + 1 } = .running
            ((functionSite setting graph key final).start 0
              (initialFrame (signature function).parameters arguments)
              { t₁ with depth := t₁.depth + 1 }) := by
        have block : findBlock (freeze final) 0 = some (freezeBlock 0 (final.blocks 0)) :=
          findBlock_freeze made
        simp only [enterBlock, block, Site.start, functionSite]
      rw [entered]
      exact ran
  filter_upwards [(tendsto_sub_atTop_nat 1).eventually called, eventually_ge_atTop 1]
    with fuel called enough
  rwa [Nat.sub_add_cancel enough] at called

end Call

/-- **Lowered programs do what the lowered lane says.** Calls of the lowered lane that
complete are calls of the executor with the same result, host state and call depth. -/
theorem callFunction_answers {setting : Setting σ}
    (done : lowerGraph setting.runtime.host setting.program = .ok graph)
    (named : NamesApart setting) (fuel : Nat) :
    Answers (callFunction Lane.lowered setting fuel) (Mir.call ⟨setting.runtime, graph⟩) := by
  induction fuel with
  | zero =>
    refine ⟨fun _ _ _ s t a s' alike called => ?_, fun _ _ _ _ _ _ => callFunction_silent⟩
    cases called
  | succ fuel ih =>
    refine ⟨fun key name arguments s t value s' alike called => ?_,
      fun _ _ _ _ _ _ => callFunction_silent⟩
    obtain ⟨less, module, function, state', same, found, ran, rfl⟩ := callFunction_ok called
    obtain rfl : fuel = less := by omega
    obtain ⟨lowered, blocks, asLowered⟩ := moduleFunction_lowered done found
    obtain ⟨source, functions⟩ := named module asLowered.member.1
    exact call_mirrors asLowered (functions function asLowered.member.2) source ih alike ran

end Koschei.Lowering
