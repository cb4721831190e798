import Koschei.Core.Runtime
import Koschei.Mir.Validate

/-!
# The canonical MIR executor

`MirExecutorV1` runs the sealed blocks of a function directly. A call has a
frame: the SSA values computed so far and one flat table of bindings. One step
executes one instruction or follows one terminator; a call is the run of these
steps from block 0 to a return, a failure, or the end of the fuel.

Values, members, primitives and type checks are reached through the shared
`Runtime`. The container builders and the iterators are the executor's own
objects and are modelled here. Source locations of faults are left out.
-/

namespace Koschei.Mir

open Lib

variable {σ α : Type}

/-! ## Functions, modules and graphs -/

/-- A lowered function. -/
structure MirFunction where
  name : String
  parameters : List (String × TypeNode)
  returnType : TypeNode
  typeParameters : List String
  blocks : List BasicBlock
  deriving Inhabited

/-- A module of a sealed graph. -/
structure MirModule where
  key : String
  name : String
  imports : List (String × String)
  functions : List MirFunction
  deriving Inhabited

/-- A sealed graph. -/
structure MirGraph where
  root : String
  modules : List MirModule

/-- `module_of`. -/
def MirGraph.moduleOf (graph : MirGraph) (key : String) : Except Fault MirModule :=
  match graph.modules.find? fun module => module.key == key with
  | some module => .ok module
  | none => .error .keyError

/-- `_module_function`. -/
def MirGraph.moduleFunction (graph : MirGraph) (moduleKey functionName : String) :
    Except Fault (MirModule × MirFunction) := do
  let module ← graph.moduleOf moduleKey
  match module.functions.find? fun function => function.name == functionName with
  | some function => .ok (module, function)
  | none =>
    .error ⟨"KS3101", "MIR fonksiyonu bulunamadı: " ++ module.name ++ "." ++ functionName⟩

/-! ## Frames -/

/-- The locals of one call. -/
structure Frame where
  values : ValueId → Option Value
  bindings : String → Option Cell

namespace Frame

/-- `values[target] = value`. -/
def set (frame : Frame) (target : ValueId) (value : Value) : Frame :=
  { frame with values := Function.update frame.values target (some value) }

/-- `bindings[name] = [value, is_mutable]`. -/
def bind (frame : Frame) (name : String) (cell : Cell) : Frame :=
  { frame with bindings := Function.update frame.bindings name (some cell) }

/-- `values[id]`. -/
def read (frame : Frame) (id : ValueId) : Exec σ Value := match frame.values id with
  | some value => pure value
  | none => raise .keyError

/-- `[values[item] for item in ids]`. -/
def readAll (frame : Frame) : List ValueId → Exec σ (List Value)
  | [] => pure []
  | id :: ids => do
    let value ← frame.read id
    let values ← frame.readAll ids
    pure (value :: values)

/-- Put the result of a computation at an SSA id. -/
def assign (frame : Frame) (target : ValueId) (result : Exec σ Value) : Exec σ Frame := do
  let value ← result
  pure (frame.set target value)

end Frame

/-! ## Constants and operators -/

/-- A constant as it is put into a register: an Int out of range becomes an Error. -/
def constValue : Value → Value
  | .int i =>
    if intMin ≤ i ∧ i ≤ intMax then .int i
    else .error ("KS3501: Int literal 64-bit aralığı aştı: " ++ toString i)
  | value => value

/-- `abs(left) // abs(right)` with the sign of the exact quotient. -/
def truncatedQuotient (left right : Int) : Int :=
  if decide (left < 0) != decide (right < 0) then -((left.natAbs / right.natAbs : Nat) : Int)
  else ((left.natAbs / right.natAbs : Nat) : Int)

def unaryValue (runtime : Runtime σ) (operator : UnaryOperator) (operand : Value) : Exec σ Value :=
  match operand with
  | .error message => pure (.error message)
  | operand =>
    match operator with
    | .not => pure (.bool (!runtime.host.truthy operand))
    | .neg =>
      match operand with
      | .int i =>
        if i = intMin then pure (.error "KS3501: Int taşması: 'unary -'")
        else pure (.int (-i))
      | operand => lift (runtime.host.negateValue operand)

/-- `left + right`, `left - right` and `left * right` with the Int range check. -/
def checkedArith (runtime : Runtime σ) (op : ArithOp) (text : String) (left right : Value) :
    Exec σ Value :=
  match left, right with
  | .int i, .int j =>
    let result := match op with
      | .add => i + j
      | .sub => i - j
      | _ => i * j
    if intMin ≤ result ∧ result ≤ intMax then pure (.int result)
    else pure (.error ("KS3501: Int taşması: '" ++ text ++ "'"))
  | left, right => lift (runtime.host.arithValue op left right)

/-- A binary operator on two operands that are no Errors; `&&` and `||` do not
come here. -/
def strictBinary (runtime : Runtime σ) (operator : BinaryOperator) (left right : Value) :
    Exec σ Value :=
  match operator with
  | .add => checkedArith runtime .add "+" left right
  | .sub => checkedArith runtime .sub "-" left right
  | .mul => checkedArith runtime .mul "*" left right
  | .div => do
    if ← askLift fun host => runtime.equal host right (.int 0) then pure (.error "Sıfıra bölme")
    else
      match left, right with
      | .int i, .int j =>
        if i = intMin ∧ j = -1 then pure (.error "KS3501: Int taşması: '/'")
        else pure (.int (truncatedQuotient i j))
      | left, right => lift (runtime.host.arithValue .div left right)
  | .rem =>
    match left, right with
    | .int i, .int j =>
      if j = 0 then pure (.error "Sıfıra bölme")
      else pure (.int (i - truncatedQuotient i j * j))
    | _, _ => raise ⟨"KS5002", "Bilinmeyen MIR binary operator: %"⟩
  | .eq => do pure (.bool (← askLift fun host => runtime.equal host left right))
  | .ne => do pure (.bool (!(← askLift fun host => runtime.equal host left right)))
  | .lt => do pure (.bool (← askLift fun host => runtime.compare host .lt left right))
  | .le => do pure (.bool (← askLift fun host => runtime.compare host .le left right))
  | .gt => do pure (.bool (← askLift fun host => runtime.compare host .gt left right))
  | .ge => do pure (.bool (← askLift fun host => runtime.compare host .ge left right))
  | .and | .or => raise ⟨"KS5002", "Bilinmeyen MIR binary operator: " ++ operator.text⟩

/-- The right operand of `&&` and `||` as the result. -/
def asCondition (runtime : Runtime σ) (value : Value) : Value :=
  if value.isError then value else .bool (runtime.host.truthy value)

/-- `_binary`. -/
def binary (runtime : Runtime σ) (operator : BinaryOperator) (left right : ValueId)
    (frame : Frame) : Exec σ Value := do
  let leftValue ← frame.read left
  if leftValue.isError then pure leftValue
  else
    match operator with
    | .and =>
      if runtime.host.truthy leftValue then do
        pure (asCondition runtime (← frame.read right))
      else pure (.bool false)
    | .or =>
      if runtime.host.truthy leftValue then pure (.bool true)
      else do
        pure (asCondition runtime (← frame.read right))
    | operator => do
      let rightValue ← frame.read right
      if rightValue.isError then pure rightValue
      else strictBinary runtime operator leftValue rightValue

/-! ## Variants -/

/-- `variant_is_v1`. -/
def variantIs (value : Value) (canonicalVariant : String) : Except String Bool :=
  match splitCanonicalVariant canonicalVariant with
  | .error message => .error message
  | .ok (owner, variant) =>
    match value with
    | .enum enumName name _ _ => .ok (enumName == owner && name == variant)
    | _ => .error "MIR variant comparison requires EnumValue"

/-- The text a payload extraction fails with when the variant does not match. -/
def payloadMismatch : String := "payload extraction variant proof mismatch"

/-- `variant_payload_v1`. -/
def variantPayload (value : Value) (canonicalVariant : String) : Except String Value :=
  match variantIs value canonicalVariant with
  | .error message => .error message
  | .ok false => .error payloadMismatch
  | .ok true =>
    match value with
    | .enum _ _ (some payload) _ => .ok payload
    | _ => .error "canonical variant carries no payload"

/-- The checked owner instance of a variant construction. -/
def ownerInstance (type : TypeNode) (owner : String) : Option TypeNode :=
  match type.alternatives.filter fun option => option.headName == some owner with
  | [selected] => some selected
  | _ => none

/-- The owner, the name and the type arguments of a value to construct. -/
def constructContract (variant : String) (type : TypeNode) :
    Except Fault (String × String × List String) :=
  match splitCanonicalVariant variant with
  | .error message =>
    .error ⟨"KS5002", "Canonical MIR variant construction failed closed: " ++ message⟩
  | .ok (owner, name) =>
    match ownerInstance type owner with
    | none => .error ⟨"KS5002",
        "Canonical MIR variant type does not identify exactly one checked owner instance."⟩
    | some selected => .ok (owner, name, selected.arguments.map TypeNode.render)

/-- A constructed value with a payload, which may carry no capability. -/
def constructWith (runtime : Runtime σ) (contract : String × String × List String)
    (payload : Value) : Exec σ Value := do
  if ← ask fun host => runtime.containsCapability host payload then
    raise ⟨"KS3401", "Capability taşıyan değer sealed MIR enum payload'ına konamaz."⟩
  else pure (.enum contract.1 contract.2.1 payload.asPayload contract.2.2)

/-- Execution of `MirVariantConstruct`. -/
def variantConstruct (runtime : Runtime σ) (variant : String) (source : Option ValueId)
    (type : TypeNode) (frame : Frame) : Exec σ Value := do
  let contract ← lift (constructContract variant type)
  match source with
  | none => pure (.enum contract.1 contract.2.1 none contract.2.2)
  | some source => do constructWith runtime contract (← frame.read source)

/-! ## Objects -/

/-- Create an object. -/
def allocate (object : Object) : Exec σ Value := fun store =>
  .ok (.object store.objects.length) { store with objects := store.objects ++ [object] }

/-- Overwrite an object. -/
def update (address : Nat) (object : Object) : Exec σ Unit := fun store =>
  .ok () { store with objects := store.objects.set address object }

/-- The object a value refers to, if it is one of the executor's own. -/
def objectOf (value : Value) (store : Store σ) : Option (Nat × Object) := match value with
  | .object address => (store.objects[address]?).map fun object => (address, object)
  | _ => none

/-- Run on the iterator a value refers to. -/
def withIterator (value : Value) (next : Nat → List Value → Nat → Exec σ α) : Exec σ α :=
  withState fun store =>
    match objectOf value store with
    | some (address, .iterator values index) => next address values index
    | _ => raise .attributeError

/-- Run on the Map builder a value refers to. -/
def withMapBuilder (value : Value) (next : Nat → List (String × Value) → Bool → Exec σ α) :
    Exec σ α :=
  withState fun store =>
    match objectOf value store with
    | some (address, .mapBuilder entries consumed) => next address entries consumed
    | _ => raise ⟨"KS5002", "Geçersiz MIR Map builder."⟩

/-- Run on the Struct builder a value refers to. -/
def withStructBuilder (value : Value)
    (next : Nat → StructDeclaration → List String → List (String × Value) → List TypeNode →
      Bool → Exec σ α) : Exec σ α :=
  withState fun store =>
    match objectOf value store with
    | some (address, .structBuilder declaration required fields concrete consumed) =>
      next address declaration required fields concrete consumed
    | _ => raise ⟨"KS5002", "Geçersiz MIR Struct builder."⟩

/-- The text of a capability rejected by an ordinary container. -/
def launderingMessage (container : String) : String :=
  "Capability taşıyan değerler ordinary " ++ container ++
    "; runtime type-laundering girişimini reddetti."

/-- The entries of a Map builder after one more, when the key is admitted. -/
def insertEntry (runtime : Runtime σ) (host : σ) (entries : List (String × Value))
    (key value : Value) : Except Fault (List (String × Value)) :=
  match key with
  | .str text =>
    if entries.any fun entry => entry.1 == text then
      .error ⟨"KS3101", "Map literalinde '" ++ text ++ "' anahtarı birden fazla yazılmış."⟩
    else if runtime.containsCapability host (.str text) ||
        runtime.containsCapability host value then
      .error ⟨"KS3401", launderingMessage "Map içine konamaz"⟩
    else .ok (entries ++ [(text, value)])
  | key => .error ⟨"KS3401",
      "Map anahtarı String olmalıdır, " ++ runtime.runtimeTypeName host key ++ " bulundu."⟩

/-- `MapBuilderV1.insert`. -/
def mapInsert (runtime : Runtime σ) (builder key value : Value) : Exec σ Unit :=
  withMapBuilder builder fun address entries consumed =>
    if consumed then
      raise ⟨"KS5002", "Consumed MIR Map builder cannot accept inserts."⟩
    else do
      let entries' ← askLift fun host => insertEntry runtime host entries key value
      update address (.mapBuilder entries' false)

/-- `MapBuilderV1.finish`. -/
def mapFinish (builder : Value) : Exec σ Value :=
  withMapBuilder builder fun address entries consumed =>
    if consumed then
      raise ⟨"KS5002", "MIR Map builder may be finished exactly once."⟩
    else do
      update address (.mapBuilder entries true)
      pure (.map entries)

/-- `_require_map_value`. -/
def requireMap (value : Value) : Exec σ (List (String × Value)) := match value with
  | .map entries => pure entries
  | _ => raise ⟨"KS5002", "Sealed MIR Map value has invalid runtime shape."⟩

def requireKey (operation : String) (key : Value) : Exec σ String := match key with
  | .str text => pure text
  | _ => raise ⟨"KS5002", "Sealed MIR Map." ++ operation ++ " key must be String."⟩

/-- `map_get_v1`. -/
def mapGet (value key : Value) : Exec σ Value := do
  let entries ← requireMap value
  let text ← requireKey "get" key
  match Host.lookup entries text with
  | some item => pure item
  | none => pure (.error ("Map anahtarı bulunamadı: " ++ text))

/-- A key that is present keeps its position; a new key is appended. -/
def replaceEntry (entries : List (String × Value)) (key : String) (item : Value) :
    List (String × Value) :=
  if entries.any fun entry => entry.1 == key then
    entries.map fun entry => if entry.1 == key then (entry.1, item) else entry
  else entries ++ [(key, item)]

/-- `map_set_v1`. -/
def mapSet (runtime : Runtime σ) (value key item : Value) : Exec σ Value := do
  let entries ← requireMap value
  let text ← requireKey "set" key
  if ← ask fun host => runtime.containsCapability host item then
    raise ⟨"KS3401", launderingMessage "Map içine konamaz"⟩
  else pure (.map (replaceEntry entries text item))

/-- `map_keys_v1`. -/
def mapKeys (value : Value) : Exec σ Value := do
  let entries ← requireMap value
  pure (.list (entries.map fun entry => .str entry.1))

/-- `map_contains_v1`. -/
def mapContains (value key : Value) : Exec σ Value := do
  let entries ← requireMap value
  let text ← requireKey "contains" key
  pure (.bool (entries.any fun entry => entry.1 == text))

/-- The declaration and the type arguments a Struct builder is made for. -/
def builderContract (runtime : Runtime σ) (typeName : String) (requiredFields : List String)
    (concreteType : TypeNode) : Except Fault (StructDeclaration × List TypeNode) :=
  match runtime.structs typeName with
  | none => .error ⟨"KS3101", "MIR Struct declaration bulunamadı: '" ++ typeName ++ "'."⟩
  | some declaration =>
    if ¬ requiredFields.Nodup then
      .error ⟨"KS5002", "Sealed MIR Struct required_fields contains duplicates."⟩
    else if ¬ (requiredFields ⊆ declaration.fields.map StructField.name ∧
        declaration.fields.map StructField.name ⊆ requiredFields) then
      .error ⟨"KS5002", "Sealed MIR Struct required_fields disagrees with checked declaration."⟩
    else
      match ownerInstance concreteType declaration.name with
      | none => .error ⟨"KS5002",
          "Sealed MIR Struct concrete type does not identify exactly one checked declaration instance."⟩
      | some selected =>
        if selected.arguments.length ≠ declaration.typeParameters.length then
          .error ⟨"KS5002", "Sealed MIR Struct generic arity disagrees with checked declaration."⟩
        else .ok (declaration, selected.arguments)

/-- `StructBuilderV1.empty`, as the facade's `struct_builder` calls it. -/
def structBuilder (runtime : Runtime σ) (typeName : String) (requiredFields : List String)
    (concreteType : TypeNode) : Exec σ Value := do
  let (declaration, concrete) ←
    lift (builderContract runtime typeName requiredFields concreteType)
  allocate (.structBuilder declaration requiredFields [] concrete false)

/-- The fields of a Struct builder after one more, when the field is admitted. -/
def setField (runtime : Runtime σ) (host : σ) (declaration : StructDeclaration)
    (required : List String) (concrete : List TypeNode) (fields : List (String × Value))
    (name : String) (value : Value) : Except Fault (List (String × Value)) :=
  if ¬ required.contains name then
    .error ⟨"KS5002", "Sealed MIR Struct did not admit field '" ++ name ++ "'."⟩
  else if fields.any fun entry => entry.1 == name then
    .error ⟨"KS5002", "Sealed MIR Struct field '" ++ name ++ "' was assigned more than once."⟩
  else
    match declaration.fields.reverse.find? fun field => field.name == name with
    | none => .error ⟨"KS3101",
        "'" ++ declaration.name ++ "' struct'ında '" ++ name ++ "' alanı yok."⟩
    | some field =>
      if runtime.containsCapability host value then
        .error ⟨"KS3401", launderingMessage "Struct içine konamaz"⟩
      else
        let expected := [(field.type.substitute
          (declaration.typeParameters.zip concrete)).render]
        if (runtime.matchesType host value expected [] none).1 then
          .ok (fields ++ [(name, value)])
        else .error ⟨"KS3401", "'" ++ declaration.name ++ "." ++ name ++ "' alanı " ++
          " or ".intercalate expected ++ " beklerken " ++
          runtime.runtimeTypeName host value ++ " aldı."⟩

/-- `StructBuilderV1.set_field`. -/
def structSet (runtime : Runtime σ) (builder : Value) (name : String) (value : Value) :
    Exec σ Unit :=
  withStructBuilder builder fun address declaration required fields concrete consumed =>
    if consumed then
      raise ⟨"KS5002", "Consumed MIR Struct builder cannot accept fields."⟩
    else do
      let fields' ← askLift fun host =>
        setField runtime host declaration required concrete fields name value
      update address (.structBuilder declaration required fields' concrete false)

/-- The detail text of a struct whose fields are not the required ones. -/
def structFieldDetail (required : List String) (fields : List (String × Value)) : String :=
  let missing := (required.filter fun name => !fields.any fun entry => entry.1 == name)
  let extra := (fields.map fst).filter fun name => !required.contains name
  "; ".intercalate
    ((if missing.isEmpty then []
      else ["eksik=" ++ ",".intercalate (missing.mergeSort (fun a b => decide (a ≤ b)))]) ++
    (if extra.isEmpty then []
      else ["fazla=" ++ ",".intercalate (extra.mergeSort (fun a b => decide (a ≤ b)))]))

/-- The fields of a finished struct, in the order of the required ones. -/
def finishFields (declaration : StructDeclaration) (required : List String)
    (fields : List (String × Value)) : Except Fault (List (String × Value)) :=
  if required ⊆ fields.map fst ∧ fields.map fst ⊆ required then
    .ok (required.filterMap fun name =>
      (Host.lookup fields name).map fun value => (name, value))
  else .error ⟨"KS3101", "'" ++ declaration.name ++
    "' struct alan sözleşmesi tamamlanmadı (" ++ structFieldDetail required fields ++ ")."⟩

/-- `StructBuilderV1.finish`. -/
def structFinish (runtime : Runtime σ) (builder : Value) : Exec σ Value :=
  withStructBuilder builder fun address declaration required fields concrete consumed =>
    if consumed then
      raise ⟨"KS5002", "MIR Struct builder may be finished exactly once."⟩
    else do
      let ordered ← lift (finishFields declaration required fields)
      update address (.structBuilder declaration required fields concrete true)
      onHost (runtime.newStruct declaration.name ordered (concrete.map TypeNode.render))

/-- `struct_field_set_v1`. -/
def structFieldSet (runtime : Runtime σ) (receiver : Value) (fieldName : String)
    (value : Value) : Exec σ Value :=
  withState fun store =>
    match runtime.structParts store.host receiver with
    | none => raise ⟨"KS5002",
        "Sealed MIR Struct field assignment received a non-Struct receiver."⟩
    | some (typeName, fields, arguments) =>
      match runtime.structs typeName with
      | none => raise ⟨"KS3101",
          "MIR Struct declaration bulunamadı: '" ++ typeName ++ "'."⟩
      | some declaration =>
        match declaration.fields.find? fun field => field.name == fieldName with
        | none => raise ⟨"KS3101",
            "'" ++ typeName ++ "' struct'ında '" ++ fieldName ++ "' alanı yok."⟩
        | some field =>
          if ¬ fields.any fun entry => entry.1 == fieldName then
            raise ⟨"KS5002",
              "Sealed MIR Struct value is missing declared field '" ++ fieldName ++ "'."⟩
          else do
            if ← ask fun host => runtime.containsCapability host value then
              raise ⟨"KS3401", launderingMessage "Struct alanına atanamaz"⟩
            else if arguments.length ≠ declaration.typeParameters.length then
              raise ⟨"KS5002",
                "Sealed MIR Struct runtime generic arity disagrees with checked declaration."⟩
            else
              let bindings := if declaration.typeParameters.isEmpty then none
                else some (declaration.typeParameters.zip arguments)
              let (matched, _) ← ask fun host => runtime.matchesType host value field.names
                declaration.typeParameters bindings
              if matched then do
                onHost fun host => ((), runtime.writeField receiver fieldName value host)
                pure value
              else do
                let actual ← ask fun host => runtime.runtimeTypeName host value
                raise ⟨"KS3401", "'" ++ typeName ++ "." ++ fieldName ++ "' alanı " ++
                  " or ".intercalate field.names ++ " beklerken " ++ actual ++ " aldı."⟩

/-! ## Instructions -/

/-- What a run is given: the shared runtime and the sealed graph. -/
structure Machine (σ : Type) where
  runtime : Runtime σ
  graph : MirGraph

/-- `_load_name`: a binding, else a function of the module, a constructor, a builtin
or an import. -/
def Machine.loadName (machine : Machine σ) (moduleKey name : String) (frame : Frame) :
    Exec σ Value :=
  match frame.bindings name with
  | some cell => pure cell.value
  | none => do
    let module ← lift (machine.graph.moduleOf moduleKey)
    if module.functions.any fun function => function.name == name then
      pure (.function moduleKey name)
    else
      match machine.runtime.constructor name with
      | some constructor => pure constructor
      | none =>
        match builtin name with
        | some builtin => pure builtin
        | none =>
          match module.imports.lookup name with
          | some key => pure (.module key)
          | none => raise ⟨"KS3101", "Tanımsız MIR isim: '" ++ name ++ "'."⟩

/-- Execution of `MirStore`: the binding is checked before the source is read. -/
def storeName (name : String) (source : ValueId) (frame : Frame) : Exec σ Frame :=
  match frame.bindings name with
  | none => raise ⟨"KS3101", "Tanımsız MIR binding: '" ++ name ++ "'."⟩
  | some cell =>
    if cell.isMutable then do
      let value ← frame.read source
      pure (frame.bind name ⟨value, true⟩)
    else raise ⟨"KS3201", "'" ++ name ++ "' immutable bir MIR binding'dir."⟩

/-- Whether any of some values carries a capability, asked from left to right. -/
def anyCapability (runtime : Runtime σ) : List Value → Exec σ Bool
  | [] => pure false
  | value :: values => do
    if ← ask fun host => runtime.containsCapability host value then pure true
    else anyCapability runtime values

/-- Execution of `MirList`. -/
def makeList (runtime : Runtime σ) (items : List Value) : Exec σ Value := do
  if ← anyCapability runtime items then
    raise ⟨"KS3401", "Capability taşıyan değer MIR List içine konamaz."⟩
  else pure (.list items)

/-- Execution of `MirInterpolate`: each item is read and rendered before the next. -/
def interpolate (runtime : Runtime σ) (frame : Frame) : List ValueId → Exec σ String
  | [] => pure ""
  | id :: ids => do
    let value ← frame.read id
    let text ← askLift fun host => runtime.toText host value
    let rest ← interpolate runtime frame ids
    pure (text ++ rest)

/-- Execution of `MirIterInit`. -/
def iterInit (iterable : Value) : Exec σ Value := match iterable with
  | .list items => allocate (.iterator items 0)
  | _ => raise ⟨"KS3101", "MIR iterator yalnızca List üzerinde kurulabilir."⟩

/-- Execution of `MirIterHasNext`. -/
def iterHasNext (iterator : Value) : Exec σ Value :=
  withIterator iterator fun _ values index => pure (.bool (decide (index < values.length)))

/-- Execution of `MirIterNext`. -/
def iterNext (iterator : Value) : Exec σ Value := withIterator iterator fun address values index =>
    match values[index]? with
    | none => raise ⟨"KS5002", "MIR iterator sınır dışı next."⟩
    | some value => do
      update address (.iterator values (index + 1))
      pure value

/-- Execution of `MirMember`. -/
def memberValue (runtime : Runtime σ) (receiver : Value) (name : String) : Exec σ Value :=
  match receiver with
  | .module key => pure (.function key name)
  | receiver => askLift fun host => runtime.member host receiver name

/-- `invoke_capability_call`: the sealed identity is checked before the member is read. -/
def invokeCapability (runtime : Runtime σ) (call : Caller σ) (receiver : Value)
    (arguments : List Value) (capabilityType method canonicalEffect powerDomain : String) :
    Exec σ Value := do
  askLift fun host => runtime.capabilityContract host receiver capabilityType method
    canonicalEffect powerDomain
  let function ← askLift fun host => runtime.member host receiver method
  runPrim call (runtime.invoke function arguments)

/-- Execution of `MirFalliblePayload`. -/
def falliblePayload (value : Value) : Exec σ Value := match value.unwrapFallible with
  | (true, payload) => pure payload
  | (false, _) => raise ⟨"KS5002",
      "MirFalliblePayload yalnızca kanıtlanmış success yolunda çalışabilir."⟩

/-- A variant operation, its failure turned into a fault. -/
def failClosed (operation : String) (result : Except String α) : Exec σ α := match result with
  | .ok a => pure a
  | .error message => raise ⟨"KS5002",
      "Canonical MIR variant " ++ operation ++ " failed closed: " ++ message⟩

/-- `_execute_instruction`. -/
def executeInstruction (machine : Machine σ) (call : Caller σ) (moduleKey : String)
    (frame : Frame) : Instruction → Exec σ Frame
  | .astFallback _ nodeKind _ =>
    raise ⟨"KS5002", "MIR executor AST fallback çalıştırmaz: " ++ nodeKind⟩
  | .unit target _ => frame.assign target (pure .unit)
  | .const target value _ => frame.assign target (pure (constValue value))
  | .load target name _ => frame.assign target (machine.loadName moduleKey name frame)
  | .bind name source isMutable _ => do
    let value ← frame.read source
    pure (frame.bind name ⟨value, isMutable⟩)
  | .store name source _ => storeName name source frame
  | .unary target operator operand _ => frame.assign target do
      unaryValue machine.runtime operator (← frame.read operand)
  | .binary target operator left right _ =>
    frame.assign target (binary machine.runtime operator left right frame)
  | .list target items _ => frame.assign target do
      makeList machine.runtime (← frame.readAll items)
  | .interpolate target items _ => frame.assign target do
      pure (.str (← interpolate machine.runtime frame items))
  | .isRuntimeError target source _ => frame.assign target do
      pure (.bool (← frame.read source).isError)
  | .variantConstruct target variant source type =>
    frame.assign target (variantConstruct machine.runtime variant source type frame)
  | .variantIs target source variant _ => frame.assign target do
      let value ← frame.read source
      pure (.bool (← failClosed "comparison" (variantIs value variant)))
  | .variantPayload target source variant _ => frame.assign target do
      let value ← frame.read source
      failClosed "payload" (variantPayload value variant)
  | .mapNew target _ => frame.assign target (allocate (.mapBuilder [] false))
  | .mapInsert object key value _ => do
    let builder ← frame.read object
    let keyValue ← frame.read key
    let item ← frame.read value
    mapInsert machine.runtime builder keyValue item
    pure frame
  | .mapFinish target source _ => frame.assign target do
      mapFinish (← frame.read source)
  | .capabilityCall target object arguments capabilityType method canonicalEffect powerDomain _ =>
    frame.assign target do
      let receiver ← frame.read object
      let values ← frame.readAll arguments
      invokeCapability machine.runtime call receiver values capabilityType method
        canonicalEffect powerDomain
  | .mapGet target object key _ => frame.assign target do
      let value ← frame.read object
      mapGet value (← frame.read key)
  | .mapSet target object key value _ => frame.assign target do
      let receiver ← frame.read object
      let keyValue ← frame.read key
      mapSet machine.runtime receiver keyValue (← frame.read value)
  | .mapKeys target object _ => frame.assign target do
      mapKeys (← frame.read object)
  | .mapContains target object key _ => frame.assign target do
      let value ← frame.read object
      mapContains value (← frame.read key)
  | .structNew target typeName requiredFields type =>
    frame.assign target (structBuilder machine.runtime typeName requiredFields type)
  | .structSet object field source _ => do
    let builder ← frame.read object
    structSet machine.runtime builder field (← frame.read source)
    pure frame
  | .structFinish target source _ => frame.assign target do
      structFinish machine.runtime (← frame.read source)
  | .structFieldSet target object field source _ => frame.assign target do
      let receiver ← frame.read object
      structFieldSet machine.runtime receiver field (← frame.read source)
  | .iterInit target iterable _ => frame.assign target do
      iterInit (← frame.read iterable)
  | .iterHasNext target iterator _ => frame.assign target do
      iterHasNext (← frame.read iterator)
  | .iterNext target iterator _ => frame.assign target do
      iterNext (← frame.read iterator)
  | .member target object name _ => frame.assign target do
      memberValue machine.runtime (← frame.read object) name
  | .call target callee arguments _ => frame.assign target do
      let function ← frame.read callee
      let values ← frame.readAll arguments
      invoke machine.runtime call function values
  | .fallibleIsSuccess target source _ => frame.assign target do
      pure (.bool (← frame.read source).unwrapFallible.1)
  | .falliblePayload target source _ => frame.assign target do
      falliblePayload (← frame.read source)

/-! ## Runs -/

/-- Where a run stands: in a block, before the instruction at `position`. -/
structure Config (σ : Type) where
  block : BasicBlock
  position : Nat
  frame : Frame
  store : Store σ

/-- The result of one step. -/
inductive Progress (σ : Type) where
  | running (config : Config σ)
  | returned (value : Value) (store : Store σ)
  | failed (fault : Fault) (store : Store σ)
  | timeout

/-- `{block.id: block for block in function.blocks}[id]`. -/
def findBlock (blocks : List BasicBlock) (id : BlockId) : Option BasicBlock :=
  blocks.reverse.find? fun block => block.id == id

/-- Go to the start of a block. -/
def enterBlock (blocks : List BasicBlock) (id : BlockId) (frame : Frame) (store : Store σ) :
    Progress σ :=
  match findBlock blocks id with
  | some block => .running ⟨block, 0, frame, store⟩
  | none => .failed ⟨"KS5002", "MIR bilinmeyen bloğa geçti: " ++ toString id⟩ store

def followTerminator (machine : Machine σ) (blocks : List BasicBlock) (frame : Frame)
    (store : Store σ) : Terminator → Progress σ
  | .ret none => .returned .unit store
  | .ret (some id) =>
    match frame.values id with
    | some value => .returned value store
    | none => .failed .keyError store
  | .jump target => enterBlock blocks target frame store
  | .branch condition thenBlock elseBlock =>
    match frame.values condition with
    | none => .failed .keyError store
    | some (.error _) => .failed ⟨"KS5002",
        "MIR branch koşulu runtime Error değeri üretti; statement-result error continuation henüz canonical MIR içinde normalize edilmedi."⟩ store
    | some value =>
      enterBlock blocks (if machine.runtime.host.truthy value then thenBlock else elseBlock)
        frame store
  | .unreachable reason =>
    .failed ⟨"KS5002", "MIR unreachable bloğa ulaştı: " ++ reason⟩ store

/-- One step: the next instruction of the block, or its terminator. -/
def step (machine : Machine σ) (call : Caller σ) (moduleKey : String)
    (blocks : List BasicBlock) (config : Config σ) : Progress σ :=
  match config.block.instructions[config.position]? with
  | some instruction =>
    match executeInstruction machine call moduleKey config.frame instruction config.store with
    | .ok frame store => .running { config with
        position := config.position + 1, frame := frame, store := store }
    | .raise fault store => .failed fault store
    | .timeout => .timeout
  | none =>
    followTerminator machine blocks config.frame config.store config.block.terminator

/-- The steps of a run, until it ends or `fuel` steps are done. -/
def runSteps (machine : Machine σ) (call : Caller σ) (moduleKey : String)
    (blocks : List BasicBlock) : Nat → Progress σ → Outcome Fault (Store σ) Value
  | _, .returned value store => .ok value store
  | _, .failed fault store => .raise fault store
  | _, .timeout => .timeout
  | 0, .running _ => .timeout
  | fuel + 1, .running config =>
    runSteps machine call moduleKey blocks fuel (step machine call moduleKey blocks config)

/-! ## Calls -/

/-- The bindings of a call: its parameters, none of them assignable. A name that is
a parameter twice has the last value. -/
def initialBindings (parameters : List (String × TypeNode)) (arguments : List Value) :
    String → Option Cell := fun name =>
  (((parameters.map fst).zip arguments).reverse.lookup name).map fun value => ⟨value, false⟩

/-- The frame a call starts with. -/
def initialFrame (parameters : List (String × TypeNode)) (arguments : List Value) : Frame :=
  ⟨fun _ => none, initialBindings parameters arguments⟩

/-- Check the arguments of a call against the parameter types. -/
def checkArguments (runtime : Runtime σ) (function : MirFunction) :
    List ((String × TypeNode) × Value) → TypeBindings → Exec σ TypeBindings
  | [], bindings => pure bindings
  | ((name, type), value) :: rest, bindings => do
    let (matched, bindings') ← ask fun host => runtime.matchesType host value
      type.runtimeNames function.typeParameters bindings
    if matched then checkArguments runtime function rest bindings'
    else if function.typeParameters.isEmpty then
      raise ⟨"KS3401", "'" ++ function.name ++ "' MIR çağrısında '" ++ name ++ ": " ++
        " or ".intercalate type.runtimeNames ++ "' sözleşmesi ihlal edildi."⟩
    else
      raise ⟨"KS3106", "'" ++ function.name ++ "' MIR generic çağrısında '" ++ name ++
        ": " ++ " or ".intercalate type.runtimeNames ++
        "' için çelişkili runtime tip kanıtı bulundu; bu bir capability ihlali değildir."⟩

/-- Check the result of a call against the return type. -/
def checkReturn (runtime : Runtime σ) (function : MirFunction) (bindings : TypeBindings)
    (result : Value) : Exec σ Value := do
  let (matched, _) ← ask fun host => runtime.matchesType host result
    function.returnType.runtimeNames function.typeParameters bindings
  if matched then pure result
  else if function.typeParameters.isEmpty then do
    let actual ← ask fun host => runtime.runtimeTypeName host result
    raise ⟨"KS3401", "'" ++ function.name ++ "' MIR dönüş sözleşmesi " ++
      " or ".intercalate function.returnType.runtimeNames ++ " beklerken " ++ actual ++
      " döndürdü."⟩
  else
    raise ⟨"KS3106", "'" ++ function.name ++ "' MIR generic dönüş sözleşmesi " ++
      " or ".intercalate function.returnType.runtimeNames ++
      " ile runtime sonucu çelişiyor; bu bir capability ihlali değildir."⟩

/-- Run the blocks of a function from block 0 with the call depth raised by one. -/
def runBody (machine : Machine σ) (call : Caller σ) (moduleKey : String)
    (function : MirFunction) (bindings : TypeBindings) (fuel : Nat) (arguments : List Value) :
    Exec σ Value :=
  Comp.finallyDo
    (do
      Comp.modify fun store => { store with depth := store.depth + 1 }
      let result ← fun store => runSteps machine call moduleKey function.blocks fuel
        (enterBlock function.blocks 0 (initialFrame function.parameters arguments) store)
      checkReturn machine.runtime function bindings result)
    fun store => { store with depth := store.depth - 1 }

/-- `_call`. The fuel bounds the nesting of calls and the steps of each. -/
def call (machine : Machine σ) : Nat → Caller σ
  | 0, _, _, _ => timeout
  | fuel + 1, moduleKey, functionName, arguments => do
    let (module, function) ← lift (machine.graph.moduleFunction moduleKey functionName)
    if arguments.length ≠ function.parameters.length then
      raise ⟨"KS3101", "'" ++ function.name ++ "' için " ++
        toString function.parameters.length ++ " argüman bekleniyor, " ++
        toString arguments.length ++ " verildi."⟩
    else
      let bindings := if function.typeParameters.isEmpty then none else some []
      let bindings ← checkArguments machine.runtime function
        (function.parameters.zip arguments) bindings
      withState fun store =>
        if maxCallDepth ≤ store.depth then
          raise ⟨"KS3105", "Çağrı derinliği sınırı aşıldı (" ++ toString maxCallDepth ++ ")."⟩
        else
          runBody machine (call machine fuel) module.key function bindings fuel arguments

end Koschei.Mir
