import Koschei.Mir.Executor
import Koschei.Native.Value

/-!
# The native MIR executor

`_MirExecutor` runs the same sealed blocks as the canonical executor, on its own
values. Every instruction and every terminator consumes a step of a global
budget. The parts other modules install on top are here in the order they
apply: the type-integrity layer checks arguments and results around a call, and
the language extensions (queues, tasks, decimals, data) answer their builtins
first.

A run is written as for the canonical executor: a frame, one step at a time.
-/

namespace Koschei.Native

open Lib Mir

variable {σ α : Type}

/-! ## The runtime of the lane -/

/-- A run of an extension builtin, which may call functions of the program back. -/
inductive NPrim (σ : Type) where
  | done (result : Except Fault NValue) (state : σ)
  | call (callee : NValue) (arguments : List NValue) (state : σ)
      (resume : Except Fault NValue → σ → NPrim σ)

/-- What the executor takes as given: the host, the text and the kind of opaque
objects, the output, and the builtins of the language extensions. -/
structure NativeRuntime (σ : Type) where
  host : Host
  objectText : NValue → String
  isData : NValue → Bool
  write : String → σ → σ
  extension : String → Option (List NValue → σ → NPrim σ)

/-- A mutable object of the executor. -/
inductive NObject where
  | iterator (items : List NValue) (index : Nat)
  | mapBuilder (entries : List (String × NValue)) (consumed : Bool)
  | structBuilder (typeName : String) (requiredFields : List String)
      (fields : List (String × NValue)) (consumed : Bool)
  deriving BEq, Inhabited

/-- What a run changes. -/
structure NStore (σ : Type) where
  host : σ
  objects : List NObject
  depth : Nat
  steps : Nat

/-- A computation of a run. -/
abbrev NExec (σ α : Type) := Comp Fault (NStore σ) α

/-- How a run calls a function value. -/
abbrev NCaller (σ : Type) := String → String → List NValue → NExec σ NValue

/-- Stop with a failure of the native runtime. -/
def fail (message : String) : NExec σ α := raise (runtimeError message)

/-- Raise the result of an operator. -/
def lift (result : Except Fault α) : NExec σ α := match result with
  | .ok a => pure a
  | .error fault => raise fault

/-! ## Texts -/

mutual
/-- `_to_string`. -/
def toText (runtime : NativeRuntime σ) : NValue → String
  | .unit => "unit"
  | .bool b => if b then "true" else "false"
  | .int i => toString i
  | .float bits => runtime.host.floatText bits
  | .str s => s
  | .error message => message
  | .tuple items => "[" ++ ", ".intercalate (containerTexts runtime items) ++ "]"
  | .map entries => "\x7b" ++ ", ".intercalate (entryTexts runtime entries) ++ "\x7d"
  | value => runtime.objectText value

/-- `_to_container_repr`: texts inside containers are quoted. -/
def containerText (runtime : NativeRuntime σ) : NValue → String
  | .str s => "\"" ++ s ++ "\""
  | .unit => "unit"
  | .bool b => if b then "true" else "false"
  | .int i => toString i
  | .float bits => runtime.host.floatText bits
  | .error message => message
  | .tuple items => "[" ++ ", ".intercalate (containerTexts runtime items) ++ "]"
  | .map entries => "\x7b" ++ ", ".intercalate (entryTexts runtime entries) ++ "\x7d"
  | value => runtime.objectText value

def containerTexts (runtime : NativeRuntime σ) : List NValue → List String
  | [] => []
  | value :: values => containerText runtime value :: containerTexts runtime values

def entryTexts (runtime : NativeRuntime σ) : List (String × NValue) → List String
  | [] => []
  | (key, value) :: entries =>
    ("\"" ++ key ++ "\": " ++ containerText runtime value) :: entryTexts runtime entries
end

/-! ## Frames -/

/-- The locals of one call. -/
structure NFrame where
  values : ValueId → Option NValue
  environment : String → Option NValue
  isMutable : String → Bool

namespace NFrame

/-- `values[target] = value`. -/
def set (frame : NFrame) (target : ValueId) (value : NValue) : NFrame :=
  { frame with values := Function.update frame.values target (some value) }

/-- Execution of `MirBind` on the environment. -/
def bind (frame : NFrame) (name : String) (value : NValue) (isMutable : Bool) : NFrame :=
  { frame with
    environment := Function.update frame.environment name (some value)
    isMutable := Function.update frame.isMutable name isMutable }

/-- `_value`. -/
def read (frame : NFrame) (id : ValueId) : NExec σ NValue := match frame.values id with
  | some value => pure value
  | none => fail ("MIR value %" ++ toString id ++ " is unavailable at runtime")

/-- `[self._value(values, item) for item in ids]`. -/
def readAll (frame : NFrame) : List ValueId → NExec σ (List NValue)
  | [] => pure []
  | id :: ids => do
    let value ← frame.read id
    let values ← frame.readAll ids
    pure (value :: values)

/-- Put the result of a computation at an SSA id. -/
def assign (frame : NFrame) (target : ValueId) (result : NExec σ NValue) : NExec σ NFrame := do
  let value ← result
  pure (frame.set target value)

end NFrame

/-! ## Objects -/

/-- Create an object. -/
def allocate (object : NObject) : NExec σ NValue := fun store =>
  .ok (.object store.objects.length) { store with objects := store.objects ++ [object] }

/-- Overwrite an object. -/
def update (address : Nat) (object : NObject) : NExec σ Unit := fun store =>
  .ok () { store with objects := store.objects.set address object }

/-- Run on the object a value refers to. -/
def withObject (value : NValue) (next : Nat → Option NObject → NExec σ α) : NExec σ α :=
  withState fun store =>
    match value with
    | .object address => next address store.objects[address]?
    | _ => next 0 none

/-- `_iterator`. -/
def withIterator (value : NValue) (next : Nat → List NValue → Nat → NExec σ α) : NExec σ α :=
  withObject value fun address object =>
    match object with
    | some (.iterator items index) => next address items index
    | _ => fail "MIR iterator value has invalid runtime shape"

/-- `_map_builder`, which must not be consumed. -/
def withMapBuilder (value : NValue)
    (next : Nat → List (String × NValue) → NExec σ α) : NExec σ α :=
  withObject value fun address object =>
    match object with
    | some (.mapBuilder entries consumed) =>
      if consumed then fail "map builder already consumed" else next address entries
    | _ => fail "invalid MIR map builder"

/-- `_struct_builder`, which must not be consumed. -/
def withStructBuilder (value : NValue)
    (next : Nat → String → List String → List (String × NValue) → NExec σ α) : NExec σ α :=
  withObject value fun address object =>
    match object with
    | some (.structBuilder typeName required fields consumed) =>
      if consumed then fail "struct builder already consumed"
      else next address typeName required fields
    | _ => fail "invalid MIR struct builder"

/-- The value of a key among entries. -/
def lookup (entries : List (String × NValue)) (key : String) : Option NValue :=
  (entries.find? fun entry => entry.1 == key).map snd

/-- `_map_value`. -/
def requireMap (value : NValue) : NExec σ (List (String × NValue)) := match value with
  | .map entries => pure entries
  | _ => fail "invalid MIR Map value"

def requireKey (operation : String) (key : NValue) : NExec σ String := match key with
  | .str text => pure text
  | _ => fail ("MIR Map." ++ operation ++ " key must be String")

/-- Execution of `MirMapInsert`, the value read after the key is checked. -/
def mapInsert (builder key : NValue) (value : NExec σ NValue) : NExec σ Unit :=
  withMapBuilder builder fun address entries =>
    match key with
    | .str text =>
      if entries.any fun entry => entry.1 == text then fail "duplicate Map key insertion"
      else do
        let item ← value
        update address (.mapBuilder (entries ++ [(text, item)]) false)
    | _ => fail "MIR Map key must be String"

/-- Execution of `MirMapFinish`. -/
def mapFinish (builder : NValue) : NExec σ NValue :=
  withMapBuilder builder fun address entries => do
    update address (.mapBuilder entries true)
    pure (.map entries)

/-- Execution of `MirMapGet`. -/
def mapGet (receiver key : NValue) : NExec σ NValue := do
  let entries ← requireMap receiver
  let text ← requireKey "get" key
  match lookup entries text with
  | some item => pure item
  | none => pure (.error ("Map anahtarı bulunamadı: " ++ text))

/-- The first entry with the key is replaced; a new key is appended. -/
def replaceFirst (key : String) (item : NValue) : List (String × NValue) → List (String × NValue)
  | [] => [(key, item)]
  | (other, value) :: rest =>
    if other == key then (key, item) :: rest
    else (other, value) :: replaceFirst key item rest

/-- Execution of `MirMapSet`, the value read after the key is checked. -/
def mapSet (receiver key : NValue) (value : NExec σ NValue) : NExec σ NValue := do
  let entries ← requireMap receiver
  let text ← requireKey "set" key
  let item ← value
  pure (.map (replaceFirst text item entries))

/-- Execution of `MirMapKeys`. -/
def mapKeys (receiver : NValue) : NExec σ NValue := do
  let entries ← requireMap receiver
  pure (.tuple (entries.map fun entry => .str entry.1))

/-- Execution of `MirMapContains`. -/
def mapContains (receiver key : NValue) : NExec σ NValue := do
  let entries ← requireMap receiver
  let text ← requireKey "contains" key
  pure (.bool (entries.any fun entry => entry.1 == text))

/-- Execution of `MirStructNew`. -/
def structNew (typeName : String) (requiredFields : List String) : NExec σ NValue :=
  if ¬ requiredFields.Nodup then fail "duplicate field in sealed struct contract"
  else allocate (.structBuilder typeName requiredFields [] false)

/-- Execution of `MirStructSet`, the value read after the field is admitted. -/
def structSet (builder : NValue) (field : String) (value : NExec σ NValue) : NExec σ Unit :=
  withStructBuilder builder fun address typeName required fields =>
    if ¬ required.contains field then fail "struct field outside sealed contract"
    else if fields.any fun entry => entry.1 == field then
      fail "duplicate struct field assignment"
    else do
      let item ← value
      update address (.structBuilder typeName required (fields ++ [(field, item)]) false)

/-- Execution of `MirStructFinish`. -/
def structFinish (builder : NValue) : NExec σ NValue :=
  withStructBuilder builder fun address typeName required fields =>
    let missing := required.filter fun name => !fields.any fun entry => entry.1 == name
    if !missing.isEmpty then
      fail ("missing required struct fields: " ++ ", ".intercalate missing)
    else do
      update address (.structBuilder typeName required fields true)
      pure (.struct typeName (required.filterMap fun name =>
        (lookup fields name).map fun value => (name, value)))

/-- Execution of `MirIterInit`. -/
def iterInit (iterable : NValue) : NExec σ NValue := match iterable with
  | .tuple items => allocate (.iterator items 0)
  | _ => fail "MIR iterator requires a normalized List value"

/-- Execution of `MirIterHasNext`. -/
def iterHasNext (iterator : NValue) : NExec σ NValue :=
  withIterator iterator fun _ items index => pure (.bool (decide (index < items.length)))

/-- Execution of `MirIterNext`. -/
def iterNext (iterator : NValue) : NExec σ NValue :=
  withIterator iterator fun address items index =>
    match items[index]? with
    | none => fail "MIR iterator advanced past end of List"
    | some item => do
      update address (.iterator items (index + 1))
      pure item

/-! ## Variants and fallible values -/

/-- `_unwrap_fallible_value`. -/
def unwrapFallible : NValue → Bool × NValue
  | .error message => (false, .error message)
  | .enum "Option" "Some" payload => (true, payload.getD .noPayload)
  | .enum "Option" "None" payload => (false, .enum "Option" "None" payload)
  | .enum "Result" "Ok" payload => (true, payload.getD .noPayload)
  | .enum "Result" "Err" payload => (false, .enum "Result" "Err" payload)
  | value => (true, value)

/-- `variant_is_v1` on a native value. -/
def variantIs (value : NValue) (canonicalVariant : String) : Except String Bool :=
  match splitCanonicalVariant canonicalVariant with
  | .error message => .error message
  | .ok (owner, variant) =>
    match value with
    | .enum enumName name _ => .ok (enumName == owner && name == variant)
    | _ => .error "MIR variant comparison requires EnumValue"

/-- `variant_payload_v1` on a native value. -/
def variantPayload (value : NValue) (canonicalVariant : String) : Except String NValue :=
  match variantIs value canonicalVariant with
  | .error message => .error message
  | .ok false => .error payloadMismatch
  | .ok true =>
    match value with
    | .enum _ _ (some payload) => .ok payload
    | _ => .error "canonical variant carries no payload"

/-- A variant operation, its failure turned into a fault. -/
def failClosed (operation : String) (result : Except String α) : NExec σ α := match result with
  | .ok a => pure a
  | .error message => fail ("MIR variant " ++ operation ++ " failed closed: " ++ message)

/-! ## Instructions -/

/-- What a run is given. -/
structure NMachine (σ : Type) where
  runtime : NativeRuntime σ
  graph : MirGraph
  maxSteps : Nat
  maxCallDepth : Nat

/-- The functions of a module by name, the last of one name. -/
def moduleFunction (graph : MirGraph) (moduleKey name : String) : Option MirFunction :=
  (graph.modules.find? fun module => module.key == moduleKey).bind fun module =>
    module.functions.reverse.find? fun function => function.name == name

/-- The builtins of the lane itself. -/
def builtins : List String := ["print", "println", "Error", "Some", "None", "Ok", "Err"]

/-- Execution of `MirLoad`: an import comes before a builtin. -/
def loadName (machine : NMachine σ) (moduleKey name : String) (frame : NFrame) : NExec σ NValue :=
  match machine.graph.moduleOf moduleKey with
  | .error fault => raise fault
  | .ok module =>
    match frame.environment name with
    | some value => pure value
    | none =>
      if (moduleFunction machine.graph moduleKey name).isSome then
        pure (.function name moduleKey)
      else
        match module.imports.lookup name with
        | some key => pure (.module key)
        | none =>
          if builtins.contains name || (machine.runtime.extension name).isSome then
            pure (.builtin name)
          else fail ("unknown MIR load name '" ++ name ++ "'")

/-- Execution of `MirStore`. -/
def storeName (name : String) (source : ValueId) (frame : NFrame) : NExec σ NFrame :=
  match frame.environment name with
  | none => fail ("store to unknown MIR binding '" ++ name ++ "'")
  | some _ =>
    if frame.isMutable name then do
      let value ← frame.read source
      pure { frame with environment := Function.update frame.environment name (some value) }
    else fail ("store to immutable MIR binding '" ++ name ++ "'")

/-- Execution of `MirMember`. -/
def memberValue (machine : NMachine σ) (receiver : NValue) (name : String) : NExec σ NValue :=
  match receiver with
  | .struct _ fields =>
    match lookup fields name with
    | some item => pure item
    | none => fail ("struct has no sealed field '" ++ name ++ "'")
  | .module key =>
    if machine.graph.modules.any fun module => module.key == key then
      if (moduleFunction machine.graph key name).isSome then pure (.function name key)
      else fail ("module has no MIR function '" ++ name ++ "'")
    else fail ("member access targets unknown MIR module '" ++ key ++ "'")
  | _ => fail "native MIR member receiver has unsupported sealed shape"

/-- A builtin of the lane itself. -/
def invokeBuiltin (runtime : NativeRuntime σ) (name : String) (arguments : List NValue) :
    NExec σ NValue :=
  match name, arguments with
  | "print", [value] => fun store =>
    .ok .unit { store with host := runtime.write (toText runtime value) store.host }
  | "println", [value] => fun store =>
    .ok .unit { store with host := runtime.write (toText runtime value ++ "\n") store.host }
  | "print", _ => fail "print expects one argument"
  | "println", _ => fail "println expects one argument"
  | "Error", [value] => pure (.error (toText runtime value))
  | "Error", _ => fail "Error expects one argument"
  | "Some", [value] => pure (.enum "Option" "Some" (some value))
  | "Some", _ => fail "Some expects one argument"
  | "None", [] => pure (.enum "Option" "None" none)
  | "None", _ => fail "None expects zero arguments"
  | "Ok", [value] => pure (.enum "Result" "Ok" (some value))
  | "Ok", _ => fail "Ok expects one argument"
  | "Err", [value] => pure (.enum "Result" "Err" (some value))
  | "Err", _ => fail "Err expects one argument"
  | _, _ => fail "MIR call target is not callable"

/-- Run an extension builtin, calling back through `call`. -/
def NPrim.run (call : NCaller σ) : NPrim σ → NExec σ NValue
  | .done (.ok value) host => fun store => .ok value { store with host := host }
  | .done (.error fault) host => fun store => .raise fault { store with host := host }
  | .call (.function name moduleKey) arguments host resume => fun store =>
    match call moduleKey name arguments { store with host := host } with
    | .ok value store' => (resume (.ok value) store'.host).run call store'
    | .raise fault store' => (resume (.error fault) store'.host).run call store'
    | .timeout => .timeout
  | .call _ _ host resume => fun store =>
    (resume (.error (runtimeError "MIR call target is not callable")) host).run call store

/-- `_invoke`. -/
def invoke (machine : NMachine σ) (call : NCaller σ) (callee : NValue)
    (arguments : List NValue) : NExec σ NValue :=
  match callee with
  | .function name moduleKey => call moduleKey name arguments
  | .builtin name =>
    match machine.runtime.extension name with
    | some primitive => fun store => (primitive arguments store.host).run call store
    | none => invokeBuiltin machine.runtime name arguments
  | _ => fail "MIR call target is not callable"

/-- Execution of `MirInterpolate`. -/
def interpolate (runtime : NativeRuntime σ) (frame : NFrame) : List ValueId → NExec σ String
  | [] => pure ""
  | id :: ids => do
    let value ← frame.read id
    let rest ← interpolate runtime frame ids
    pure (toText runtime value ++ rest)

/-- A constant as it is put into a register. -/
def constValue (value : Value) : NValue := (NValue.ofScalar value).getD .unit

/-- `_execute_instruction`. -/
def executeInstruction (machine : NMachine σ) (call : NCaller σ) (moduleKey : String)
    (frame : NFrame) : Instruction → NExec σ NFrame
  | .const target value _ => frame.assign target (pure (constValue value))
  | .load target name _ => frame.assign target (loadName machine moduleKey name frame)
  | .bind name source isMutable _ => do
    let value ← frame.read source
    pure (frame.bind name value isMutable)
  | .store name source _ => storeName name source frame
  | .unary target operator operand _ => frame.assign target do
      lift (unary machine.runtime.host operator (← frame.read operand))
  | .binary target operator left right _ => frame.assign target do
      let leftValue ← frame.read left
      let rightValue ← frame.read right
      lift (binary machine.runtime.host operator leftValue rightValue)
  | .unit target _ => frame.assign target (pure .unit)
  | .isRuntimeError target source _ => frame.assign target do
      pure (.bool (← frame.read source).isError)
  | .fallibleIsSuccess target source _ => frame.assign target do
      pure (.bool (unwrapFallible (← frame.read source)).1)
  | .falliblePayload target source _ => frame.assign target do
      match unwrapFallible (← frame.read source) with
      | (true, payload) => pure payload
      | (false, _) => fail "fallible payload reached without a success proof"
  | .interpolate target items _ => frame.assign target do
      pure (.str (← interpolate machine.runtime frame items))
  | .variantIs target source variant _ => frame.assign target do
      let value ← frame.read source
      pure (.bool (← failClosed "comparison" (variantIs value variant)))
  | .variantPayload target source variant _ => frame.assign target do
      let value ← frame.read source
      failClosed "payload extraction" (variantPayload value variant)
  | .mapNew target _ => frame.assign target (allocate (.mapBuilder [] false))
  | .mapInsert object key value _ => do
    let builder ← frame.read object
    mapInsert builder (← frame.read key) (frame.read value)
    pure frame
  | .mapFinish target source _ => frame.assign target do
      mapFinish (← frame.read source)
  | .mapGet target object key _ => frame.assign target do
      let receiver ← frame.read object
      mapGet receiver (← frame.read key)
  | .mapSet target object key value _ => frame.assign target do
      let receiver ← frame.read object
      mapSet receiver (← frame.read key) (frame.read value)
  | .mapKeys target object _ => frame.assign target do
      mapKeys (← frame.read object)
  | .mapContains target object key _ => frame.assign target do
      let receiver ← frame.read object
      mapContains receiver (← frame.read key)
  | .structNew target typeName requiredFields _ =>
    frame.assign target (structNew typeName requiredFields)
  | .structSet object field source _ => do
    structSet (← frame.read object) field (frame.read source)
    pure frame
  | .structFinish target source _ => frame.assign target do
      structFinish (← frame.read source)
  | .list target items _ => frame.assign target do
      pure (.tuple (← frame.readAll items))
  | .iterInit target iterable _ => frame.assign target do
      iterInit (← frame.read iterable)
  | .iterHasNext target iterator _ => frame.assign target do
      iterHasNext (← frame.read iterator)
  | .iterNext target iterator _ => frame.assign target do
      iterNext (← frame.read iterator)
  | .member target object name _ => frame.assign target do
      memberValue machine (← frame.read object) name
  | .call target callee arguments _ => frame.assign target do
      let function ← frame.read callee
      let values ← frame.readAll arguments
      invoke machine call function values
  | .astFallback .. => fail "unsupported MIR instruction reached runtime: MirAstFallback"
  | .variantConstruct .. =>
    fail "unsupported MIR instruction reached runtime: MirVariantConstruct"
  | .capabilityCall .. =>
    fail "unsupported MIR instruction reached runtime: MirCapabilityCall"
  | .structFieldSet .. =>
    fail "unsupported MIR instruction reached runtime: MirStructFieldSet"

/-! ## Runs -/

/-- Where a run stands. -/
structure NConfig (σ : Type) where
  block : BasicBlock
  position : Nat
  frame : NFrame
  store : NStore σ

/-- The result of one step. -/
inductive NProgress (σ : Type) where
  | running (config : NConfig σ)
  | returned (value : NValue) (store : NStore σ)
  | failed (fault : Fault) (store : NStore σ)
  | timeout

/-- Go to the start of a block. -/
def enterBlock (function : MirFunction) (id : BlockId) (frame : NFrame) (store : NStore σ) :
    NProgress σ :=
  match findBlock function.blocks id with
  | some block => .running ⟨block, 0, frame, store⟩
  | none => .failed
      (runtimeError (function.name ++ " jumped to unknown block " ++ toString id)) store

def followTerminator (function : MirFunction) (frame : NFrame) (store : NStore σ) :
    Terminator → NProgress σ
  | .ret none => .returned .unit store
  | .ret (some id) =>
    match frame.values id with
    | some value => .returned value store
    | none => .failed
        (runtimeError ("MIR value %" ++ toString id ++ " is unavailable at runtime")) store
  | .jump target => enterBlock function target frame store
  | .branch condition thenBlock elseBlock =>
    match frame.values condition with
    | none => .failed (runtimeError
        ("MIR value %" ++ toString condition ++ " is unavailable at runtime")) store
    | some (.bool b) => enterBlock function (if b then thenBlock else elseBlock) frame store
    | some _ => .failed (runtimeError "MIR branch condition must be Bool") store
  | .unreachable reason =>
    .failed (runtimeError ("reached MIR unreachable block: " ++ reason)) store

/-- `_consume_step` came too often. -/
def stepBudgetExceeded (machine : NMachine σ) : Fault := ⟨"MirNativeStepBudgetExceeded",
    "native MIR execution exceeded " ++ toString machine.maxSteps ++ " steps"⟩

/-- One step: the next instruction of the block, or its terminator, when the budget
admits it. -/
def step (machine : NMachine σ) (call : NCaller σ) (moduleKey : String)
    (function : MirFunction) (config : NConfig σ) : NProgress σ :=
  let store := { config.store with steps := config.store.steps + 1 }
  if machine.maxSteps < store.steps then .failed (stepBudgetExceeded machine) store
  else
    match config.block.instructions[config.position]? with
    | some instruction =>
      match executeInstruction machine call moduleKey config.frame instruction store with
      | .ok frame store => .running { config with
          position := config.position + 1, frame := frame, store := store }
      | .raise fault store => .failed fault store
      | .timeout => .timeout
    | none => followTerminator function config.frame store config.block.terminator

/-- The steps of a run, until it ends or `fuel` steps are done. -/
def runSteps (machine : NMachine σ) (call : NCaller σ) (moduleKey : String)
    (function : MirFunction) : Nat → NProgress σ → Outcome Fault (NStore σ) NValue
  | _, .returned value store => .ok value store
  | _, .failed fault store => .raise fault store
  | _, .timeout => .timeout
  | 0, .running _ => .timeout
  | fuel + 1, .running config =>
    runSteps machine call moduleKey function fuel
      (step machine call moduleKey function config)

/-! ## Calls -/

/-- The frame a call starts with. -/
def initialFrame (parameters : List (String × TypeNode)) (arguments : List NValue) :
    NFrame where
  values := fun _ => none
  environment := fun name => ((parameters.map fst).zip arguments).reverse.lookup name
  isMutable := fun _ => false

end Koschei.Native
