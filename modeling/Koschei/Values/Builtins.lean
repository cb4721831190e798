import Koschei.Values.Methods

/-!
# Builtins, and the value runtime put together

`_invoke` of the interpreter with every extension installed: constructors, the
builtins that print, queues, task scopes, `parallel_map`, decimals and JSON, and
the methods bound to a value. `runtime` is the `Runtime` they make.
-/

namespace Koschei.Values

variable (outside : Outside) (declared : Declared)

/-! ## Capabilities -/

/-- What a root narrows to. -/
def narrowed : Capability → String → Option Capability
  | .netRoot, "allow" => some .netCaps
  | .diskRoot, "allow" => some .diskCaps
  | .diskRoot, "allow_read_only" => some .diskReadCaps
  | .envRoot, "allow" => some .envCaps
  | .processRoot, "allow" => some .processCaps
  | .persistRoot, "allow" => some .persistCaps
  | .serveRoot, "allow" => some .serveCaps
  | _, _ => none

def answerValue (world : World) : Answer → Except Fault Value × World
  | .text text => (.ok (.str text), world)
  | .texts texts => (.ok (.list (texts.map Value.str)), world)
  | .done => (.ok .unit, world)
  | .failure message => (.ok (.error message), world)
  | .response body status =>
    ((.ok (world.allocate (.response body status.val)).1),
      (world.allocate (.response body status.val)).2)
  | .refused fault => (.error fault, world)

/-- Record that a method of a capability is invoked. -/
def World.record (world : World) (operation : Operation) : World :=
  { world with operations := world.operations ++ [operation] }

def invokeCapability (kind : Capability) (scope : List Value) (token : Nat) (name : String)
    (arguments : List Value) (world : World) : Except Fault Value × World :=
  let world := world.record ⟨token, name, arguments⟩
  match narrowed kind name with
  | some narrower =>
    match outside.policy kind name arguments with
    | some answer => answerValue world answer
    | none =>
      ((.ok (world.allocate (.capability narrower arguments [])).1),
        (world.allocate (.capability narrower arguments [])).2)
  | none => answerValue world (outside.operate world kind scope name arguments)

/-! ## Bound methods -/

/-- How many arguments a method without a callback takes. -/
def methodArity : Value → String → Nat
  | .str _, "contains" | .str _, "split" | .str _, "join" => 1
  | .list _, "get" | .list _, "push" | .list _, "contains" | .list _, "take" => 1
  | .list _, "first_difference" | .list _, "chunks" => 1
  | .map _, "get" | .map _, "contains" | .map _, "keys_sorted_by_value" | .map _, "merge" => 1
  | .map _, "set" | .map _, "add" => 2
  | _, _ => 0

/-- The result of a method, or the fault of a wrong number of arguments. -/
def finishMethod (receiver : Value) (name : String) (arguments : List Value) (world : World)
    (result : Option (Except Fault Value)) : Prim World :=
  .done (result.getD (.error (arityFault name (methodArity receiver name) arguments))) world

/-- `_invoke_member`. -/
def invokeMember (receiver : Value) (name : String) (arguments : List Value) (world : World) :
    Prim World :=
  match receiver with
  | .str text =>
    finishMethod receiver name arguments world (textMethod outside world text name arguments)
  | .list items =>
    match callbackMethod name with
    | some contract => invokeCallback declared name contract items arguments world
    | none =>
      finishMethod receiver name arguments world
        (listMethod outside world items name arguments)
  | .map entries =>
    finishMethod receiver name arguments world (mapMethod outside world entries name arguments)
  | .object address =>
    match world.objects[address]?, name, arguments with
    | some (.response body _), "text", [] => .done (.ok (.str body)) world
    | some (.response _ statusCode), "status", [] => .done (.ok (.int statusCode)) world
    | some (.response _ _), _, _ =>
      .done (.error ⟨"KS3101", "'" ++ name ++ "' çağrısı geçersiz"⟩) world
    | some (.capability kind scope _), name, arguments =>
      let (result, world) := invokeCapability outside kind scope address name arguments world
      .done result world
    | _, _, _ => .done (.error .attributeError) world
  | _ => .done (.error .attributeError) world

/-! ## Constructors -/

/-- The invocation of a constructor: arity, confinement, payload type, type arguments. -/
def invokeConstructor (constructor : EnumConstructor) (arguments : List Value) (world : World) :
    Except Fault Value :=
  match constructor.payloadType, arguments with
  | none, [] => do
    let typeArguments ←
      if constructor.typeParameters.isEmpty then pure []
      else outside.enumArguments world constructor none
    pure (.enum constructor.enumName constructor.variant none typeArguments)
  | some names, [payload] =>
    if containsCapability world payload then
      .error (carriesFault ("Capability taşıyan değerler enum/Option/Result " ++
        "payload'ına konamaz."))
    else if constructor.typeParameters.isEmpty then
      if (outside.matchesType world payload names [] (some [])).1 then
        .ok (.enum constructor.enumName constructor.variant payload.asPayload [])
      else .error ⟨"KS3401", "'" ++ constructor.variant ++ "' payload sözleşmesi " ++
        " or ".intercalate names ++ " beklerken " ++ (outside.typeNode world payload).render ++
        " aldı."⟩
    else do
      let typeArguments ← outside.enumArguments world constructor (some payload)
      pure (.enum constructor.enumName constructor.variant payload.asPayload typeArguments)
  | payloadType, arguments =>
    .error (arityFault constructor.variant (if payloadType.isSome then 1 else 0) arguments)

/-! ## Bounded queues -/

namespace BoundedQueue

/-- A queue of some capacity without items. -/
def empty (capacity : Nat) (itemType : TypeNode) (capacity_le : capacity ≤ maxQueueCapacity) :
    BoundedQueue :=
  ⟨capacity, itemType, replicate capacity none, 0, 0, 0, capacity_le, Nat.zero_le _⟩

/-- `try_send`. -/
def trySend (queue : BoundedQueue) (value : Value) : Bool × BoundedQueue :=
  if full : queue.count = queue.capacity then (false, queue)
  else
    (true, { queue with
      buffer := queue.buffer.set queue.tail (some value)
      tail := (queue.tail + 1) % queue.capacity
      count := queue.count + 1
      count_le := Nat.lt_of_le_of_ne queue.count_le full })

/-- `try_recv`. -/
def tryRecv (queue : BoundedQueue) : Option Value × BoundedQueue :=
  if queue.count = 0 then (none, queue)
  else
    ((queue.buffer[queue.head]?).join, { queue with
      buffer := queue.buffer.set queue.head none
      head := (queue.head + 1) % queue.capacity
      count := queue.count - 1
      count_le := (Nat.sub_le _ _).trans queue.count_le })

end BoundedQueue

theorem capacity_toNat_le {capacity : Int}
    (bounds : 1 ≤ capacity ∧ capacity ≤ (maxQueueCapacity : Int)) :
    capacity.toNat ≤ maxQueueCapacity := by
  omega

/-- `bounded_queue`. -/
def newQueue (capacity witness : Value) (world : World) : Except Fault Value × World :=
  if containsCapability world witness then
    (.error ⟨"KS3904", "Capability value cannot be a bounded-queue item type."⟩, world)
  else
    match capacity with
    | .int capacity =>
      if bounds : 1 ≤ capacity ∧ capacity ≤ (maxQueueCapacity : Int) then
        let made := world.allocate (.queue (.empty capacity.toNat
          (outside.typeNode world witness) (capacity_toNat_le bounds)))
        (.ok made.1, made.2)
      else (.ok (.error "KS3901: queue capacity must be between 1 and 65536"), world)
    | _ => (.ok (.error "KS3901: queue capacity must be Int"), world)

/-- `queue_try_send`. -/
def sendTo (address : Nat) (queue : BoundedQueue) (value : Value) (world : World) :
    Except Fault Value × World :=
  if containsCapability world value then
    (.error ⟨"KS3904", "Capability value cannot enter a bounded queue."⟩, world)
  else if outside.matchesNode world value queue.itemType then
    (.ok (.bool (queue.trySend value).1), world.replace address (.queue (queue.trySend value).2))
  else
    (.error ⟨"KS3904", "bounded-queue runtime item type mismatch: expected " ++
      queue.itemType.render⟩, world)

/-- `queue_try_recv`. -/
def receiveFrom (address : Nat) (queue : BoundedQueue) (world : World) :
    Except Fault Value × World :=
  match queue.tryRecv with
  | (some value, queue) => (.ok value, world.replace address (.queue queue))
  | (none, _) => (.ok (.error "KS3903: bounded queue is empty"), world)

/-- The builtins that take a queue first. -/
def queueBuiltin (name : String) (address : Nat) (queue : BoundedQueue)
    (arguments : List Value) (world : World) : Except Fault Value × World :=
  match name, arguments with
  | "queue_try_send", [value] => sendTo outside address queue value world
  | "queue_try_recv", _ => receiveFrom address queue world
  | "queue_len", _ => (.ok (.int queue.count), world)
  | _, _ => (.ok (.int queue.capacity), world)

/-! ## Task scopes -/

/-- `type(value) in {bool, int, float, str}`. -/
def isScalar : Value → Bool
  | .bool _ | .int _ | .float _ | .str _ => true
  | _ => false

/-- `_is_share_safe_value`. -/
def isShareSafe (world : World) (value : Value) : Bool := isScalar value ||
    match world.objectOf value with
    | some (.queue queue) =>
      match queue.itemType with
      | .named name => ["Bool", "Int", "Float", "String"].contains name
      | _ => false
    | _ => false

/-- `_contains_task_scope`, following records and queues up to a depth. -/
def holdsScope (world : World) : Nat → Value → Bool
  | 0, _ => false
  | depth + 1, value => anyHeld (fun address =>
    match world.objects[address]? with
    | some (.tasks _) => true
    | some (.record _ fields _) => fields.any fun field => holdsScope world depth field.2
    | some (.queue queue) => queue.buffer.any fun item =>
      match item with
      | some item => holdsScope world depth item
      | none => false
    | _ => false) value

namespace TaskScope

/-- `spawn` of a record. -/
def spawn (scope : TaskScope) (record : TaskRecord) : Except String (Int × TaskScope) :=
  if scope.closed then .error "KS3913: task scope is already closed"
  else if room : scope.slots.length < scope.capacity then
    .ok (scope.slots.length, { scope with
      slots := scope.slots ++ [record]
      slots_le := by simpa using Nat.succ_le_of_lt room })
  else .error "KS3912: task scope capacity is exhausted"

def update (scope : TaskScope) (index : Nat) (change : TaskRecord → TaskRecord) : TaskScope :=
  { scope with
    slots := scope.slots.modify index change
    slots_le := by simpa using scope.slots_le }

/-- `pending`. The counter `_terminal` counts the records that are done, failed or
cancelled. -/
def pending (scope : TaskScope) : Nat :=
  scope.slots.countP fun record => record.state == .pending || record.state == .running

/-- `cancel`. -/
def cancel (scope : TaskScope) (task : Value) : Except String (Bool × TaskScope) :=
  if scope.closed then .error "KS3913: task scope is already closed"
  else
    match task with
    | .int index =>
      if index < 0 then .error "KS3916: task id is outside this scope"
      else
        match scope.slots[index.toNat]? with
        | none => .error "KS3916: task id is outside this scope"
        | some record =>
          if record.state = .pending then
            .ok (true, scope.update index.toNat fun record =>
              { record with state := .cancelled })
          else .ok (false, scope)
    | _ => .error "KS3916: task id is outside this scope"

/-- `cancel_all`. -/
def cancelAll (scope : TaskScope) : Except String (Nat × TaskScope) :=
  if scope.closed then .error "KS3913: task scope is already closed"
  else
    .ok (scope.slots.countP fun record => record.state == .pending, { scope with
      slots := scope.slots.map fun record =>
        if record.state = .pending then { record with state := .cancelled } else record
      slots_le := by simpa using scope.slots_le })

end TaskScope

def scopeAt (world : World) (address : Nat) : Option TaskScope := match world.objects[address]? with
  | some (.tasks scope) => some scope
  | _ => none

def World.onScope (world : World) (address : Nat) (change : TaskScope → TaskScope) : World :=
  match scopeAt world address with
  | some scope => world.replace address (.tasks (change scope))
  | none => world

/-- `task_scope`. -/
def newScope (capacity : Value) (world : World) : Except Fault Value × World := match capacity with
  | .int capacity =>
    if bounds : 1 ≤ capacity ∧ capacity ≤ (maxTaskCapacity : Int) then
      let made := world.allocate (.tasks ⟨capacity.toNat, [], false, none, by omega, Nat.zero_le _⟩)
      (.ok made.1, made.2)
    else (.ok (.error "KS3911: task scope capacity must be between 1 and 4096"), world)
  | _ => (.ok (.error "KS3911: task scope capacity must be Int"), world)

/-- `task_spawn`. What carries a capability is refused as such, anything else that may not be
shared before the scope is looked at. -/
def spawnTask (scopeValue worker argument : Value) (world : World) : Except Fault Value × World :=
  if !containsCapability world argument && !isShareSafe world argument then
    (.ok (.error "KS3917: task argument is not share-safe in structured task v1"), world)
  else
    match scopeValue, world.objectOf scopeValue with
    | .object address, some (.tasks scope) =>
      match worker with
      | .function moduleKey name =>
        if declared.parameters moduleKey name ≠ some 1 then
          (.ok (.error "KS3914: task worker must be unary named function"), world)
        else if declared.returns moduleKey name then
          (.ok (.error "KS3914: task worker must return Void"), world)
        else if containsCapability world argument then
          (.ok (.error "KS3914: task arguments cannot carry capabilities in v1"), world)
        else if holdsScope world (world.objects.length + 1) argument then
          (.ok (.error "KS3914: task arguments cannot carry TaskScope control handles"), world)
        else
          match scope.spawn ⟨worker, argument, .pending, none⟩ with
          | .ok (task, scope) => (.ok (.int task), world.replace address (.tasks scope))
          | .error message => (.ok (.error message), world)
      | _ => (.ok (.error "KS3914: task worker must be unary named function"), world)
    | _, _ => (.ok (.error "KS3915: task_spawn expects TaskScope"), world)

/-- `except KoscheiRuntimeError`. -/
def isKoscheiFault (fault : Fault) : Bool := "KS".toList.isPrefixOf fault.code.toList

/-- `mark_terminal`. -/
def markTerminal (failure : Option Value) (record : TaskRecord) : TaskRecord := { record with
    failure := failure
    state := if failure.isSome then .failed else .done }

/-- The tasks of a scope that are still to be joined, in spawn order, and the first failure
so far. -/
def joinTasks (address : Nat) : List Nat → Option Value → World → Prim World
  | [], failure, world =>
    .done (.ok (failure.getD .unit)) (world.onScope address fun scope =>
      { scope with joinResult := some (failure.getD .unit) })
  | index :: rest, failure, world =>
    match (scopeAt world address).bind fun scope => scope.slots[index]? with
    | none => .done (.error ⟨"StructuredTaskError", "KS3916: task id is outside this scope"⟩)
        world
    | some record =>
      if record.state = .cancelled then joinTasks address rest failure world
      else
        match record.worker with
        | .function moduleKey name =>
          .call moduleKey name [record.argument]
            (world.onScope address fun scope => scope.update index fun record =>
              { record with state := .running })
            fun result world =>
              let own (failed : Option Value) := joinTasks address rest
                (failure.or failed) (world.onScope address fun scope =>
                  scope.update index (markTerminal failed))
              match result with
              | .ok (.error message) => own (some (.error message))
              | .ok _ => own none
              | .error fault =>
                if isKoscheiFault fault then
                  own (some (.error (fault.code ++ ": " ++ fault.message)))
                else .done (.error fault) world
        | _ => .done (.error ⟨"KS3101", "Çağrılabilir bir değer bekleniyordu."⟩) world

/-- `task_join_all`. -/
def joinAll (address : Nat) (scope : TaskScope) (world : World) : Prim World :=
  match scope.joinResult with
  | some result => .done (.ok result) world
  | none =>
    joinTasks address (range scope.slots.length) none
      (world.onScope address fun scope => { scope with closed := true })

/-- The result of an operation that changes a scope; a refusal is an Error value. -/
def scopeResult (address : Nat) (world : World) {α : Type} (value : α → Value)
    (result : Except String (α × TaskScope)) : Except Fault Value × World :=
  match result with
  | .ok (a, scope) => (.ok (value a), world.replace address (.tasks scope))
  | .error message => (.ok (.error message), world)

/-- The builtins that take a task scope first. -/
def taskBuiltin (name : String) (address : Nat) (scope : TaskScope) (arguments : List Value)
    (world : World) : Prim World :=
  let answer (result : Except Fault Value × World) : Prim World := .done result.1 result.2
  match name, arguments with
  | "task_join_all", _ => joinAll address scope world
  | "task_cancel", [task] => answer (scopeResult address world Value.bool (scope.cancel task))
  | "task_cancel_all", _ =>
    answer (scopeResult address world (fun count : Nat => .int count) scope.cancelAll)
  | "task_pending", _ => answer (.ok (.int scope.pending), world)
  | "task_capacity", _ => answer (.ok (.int scope.capacity), world)
  | _, _ => answer (.ok (.bool scope.closed), world)

/-! ## Parallel map -/

/-- `parallel_map` of the sequential interpreter. -/
def parallelMap (values worker maxWorkers : Value) (world : World) : Prim World :=
  let refuse (message : String) : Prim World := .done (.ok (.error message)) world
  match values, worker with
  | .list items, .function moduleKey name =>
    match maxWorkers with
    | .int workers =>
      if ¬ (1 ≤ workers ∧ workers ≤ 64) then
        refuse "KS3920: parallel_map max_workers must be between 1 and 64"
      else if items.any fun item => !isScalar item || containsCapability world item then
        refuse "KS3921: parallel_map input items must be share-safe scalars"
      else
        forEach moduleKey name (fun _ item => [item])
          (fun results _ mapped world =>
            match mapped with
            | .error message => .finish (.ok (.error message))
            | mapped =>
              if !isScalar mapped || containsCapability world mapped then
                .finish (.ok (.error "KS3923: parallel worker returned a non-scalar value"))
              else .next (results ++ [mapped]))
          Value.list items [] world
    | _ => refuse "KS3920: parallel_map max_workers must be between 1 and 64"
  | .list _, _ => refuse "KS3921: parallel_map expects a direct unary worker"
  | _, _ => refuse "KS3921: parallel_map expects List<scalar>"

/-! ## Decimals -/

/-- `MAX_SCALE`. -/
def maxScale : Int := 18

/-- The digits of a text of ASCII digits; none for the empty text. -/
def asciiDigits (text : List Char) : Option (List Nat) :=
  if !text.isEmpty && text.all isDigit then some (text.map fun c => c.toNat - 48) else none

/-- `-?(?:0|[1-9][0-9]*)(?:\.[0-9]+)?`: the sign, the digits before the point and those
after. -/
def decimalParts (raw : List Char) : Option (Bool × List Nat × List Nat) :=
  let negative := raw.head? == some '-'
  let unsigned := if negative then raw.tail else raw
  let whole := unsigned.takeWhile fun c => c != '.'
  match asciiDigits whole with
  | none => none
  | some digits =>
    if whole.length > 1 && whole.head? == some '0' then none
    else
      match unsigned.drop whole.length with
      | [] => some (negative, digits, [])
      | _ :: fraction => (asciiDigits fraction).map fun after => (negative, digits, after)

/-- `DecimalValue` of some atoms, if they fit. -/
def decimalOf (atoms scale : Int) (overflow : String) (world : World) : Value × World :=
  if InRange atoms then world.allocate (.decimal atoms scale) else (.error overflow, world)

/-- `parse_decimal`. -/
def parseDecimal (raw scale : Value) (world : World) : Value × World := match raw, scale with
  | .str raw, .int scale =>
    if scale < 0 ∨ maxScale < scale then
      (.error "KS3801: decimal scale must be 0..18", world)
    else
      match decimalParts raw.toList with
      | none => (.error ("KS3801: invalid decimal text; exponent, whitespace, plus sign and " ++
          "non-canonical leading zeroes are forbidden"), world)
      | some (negative, whole, fraction) =>
        if scale < fraction.length then
          (.error ("KS3801: decimal input has more fractional digits than the declared " ++
            "scale; implicit rounding is forbidden"), world)
        else
          let digits := whole ++ fraction ++ replicate (scale.toNat - fraction.length) 0
          if maxStrDigits < digits.length then
            (.error ("Exceeds the limit (4300 digits) for integer string conversion: value " ++
              "has " ++ toString digits.length ++ " digits; use " ++
              "sys.set_int_max_str_digits() to increase the limit"), world)
          else
            decimalOf (withSign negative (numberOf digits)) scale
              "KS3803: decimal atoms overflow signed int64" world
  | .str _, _ => (.error "KS3801: decimal scale must be Int", world)
  | _, _ => (.error "KS3801: decimal() expects canonical String input", world)

/-- `decimal_text`. -/
def decimalText (atoms scale : Int) : String := let digits := (toString atoms.natAbs).toList
  let rendered := if scale = 0 then digits
    else
      let padded := replicate (scale.toNat + 1 - digits.length) '0' ++ digits
      let point := padded.length - scale.toNat
      padded.take point ++ '.' :: padded.drop point
  ofList (if atoms < 0 then '-' :: rendered else rendered)

/-- The atoms and the scale of a Decimal. -/
def decimal? (world : World) (value : Value) : Option (Int × Int) := match world.objectOf value with
  | some (.decimal atoms scale) => some (atoms, scale)
  | _ => none

/-- `_same_scale`. -/
def sameScale (world : World) (left right : Value) : Except String (Int × Int × Int) :=
  match decimal? world left, decimal? world right with
  | some (i, scale), some (j, other) =>
    if scale = other then .ok (i, j, scale)
    else .error "KS3802: decimal scales differ; implicit rescaling is forbidden"
  | _, _ => .error "KS3801: operation expects Decimal values"

def decimalBuiltin (name : String) (arguments : List Value) (world : World) : Value × World :=
  match name, arguments with
  | "decimal", [raw, scale] => parseDecimal raw scale world
  | "decimal_text", [value] =>
    match decimal? world value with
    | some (atoms, scale) => (.str (decimalText atoms scale), world)
    | none => (.error "KS3801: operation expects Decimal values", world)
  | name, [left, right] =>
    match sameScale world left right with
    | .error message => (.error message, world)
    | .ok (i, j, scale) =>
      if name = "decimal_add" then
        decimalOf (i + j) scale "KS3803: decimal addition overflow" world
      else if name = "decimal_sub" then
        decimalOf (i - j) scale "KS3803: decimal subtraction overflow" world
      else (.int (if i < j then -1 else if j < i then 1 else 0), world)
  | _, _ => (.error "", world)

/-! ## JSON -/

/-- `parse_json`. -/
def parseJson (raw : Value) (world : World) : Value × World := match raw with
  | .str raw =>
    match outside.decode raw with
    | .ok text => world.allocate (.data text)
    | .error message => (.error message, world)
  | _ => (.error "KS3708: parse_json() String bekler", world)

/-- `encode_json`. -/
def encodeJson (value : Value) (world : World) : Value := match world.objectOf value with
  | some (.data text) =>
    match outside.encode text with
    | .ok text => .str text
    | .error message => .error message
  | _ => .error "KS3708: encode_json() Data bekler"

/-! ## Invocation -/

/-- How many arguments a builtin takes. -/
def builtinArity : String → Option Nat
  | "print" | "println" | "Error" | "parse_json" | "encode_json" => some 1
  | "bounded_queue" | "queue_try_send" => some 2
  | "queue_try_recv" | "queue_len" | "queue_capacity" => some 1
  | "parallel_map" | "task_spawn" => some 3
  | "decimal" | "decimal_add" | "decimal_sub" | "decimal_cmp" | "task_cancel" => some 2
  | "decimal_text" | "task_scope" | "task_join_all" | "task_pending" | "task_capacity" => some 1
  | "task_closed" | "task_cancel_all" => some 1
  | _ => none

/-- Write to the output. -/
def World.write (world : World) (text : String) : World :=
  { world with output := world.output ++ [text] }

/-- The builtins that take a queue or a task scope first. -/
def handleBuiltin (name : String) (handle : Value) (arguments : List Value) (world : World) :
    Prim World :=
  let isQueue := ["queue_try_send", "queue_try_recv", "queue_len", "queue_capacity"].contains name
  match handle, world.objectOf handle with
  | .object address, some (.queue queue) =>
    if isQueue then
      let (result, world) := queueBuiltin outside name address queue arguments world
      .done result world
    else .done (.ok (.error ("KS3915: " ++ name ++ " expects TaskScope"))) world
  | .object address, some (.tasks scope) =>
    if isQueue then .done (.ok (.error ("KS3902: " ++ name ++ " expects BoundedQueue"))) world
    else taskBuiltin name address scope arguments world
  | _, _ =>
    .done (.ok (.error (if isQueue then "KS3902: " ++ name ++ " expects BoundedQueue"
      else "KS3915: " ++ name ++ " expects TaskScope"))) world

/-- A builtin with the number of arguments it takes. -/
def invokeBuiltin (name : String) (arguments : List Value) (world : World) : Prim World :=
  let answer (result : Value × World) : Prim World := .done (.ok result.1) result.2
  match name, arguments with
  | "println", [value] =>
    match outside.toText world value with
    | .ok text => .done (.ok .unit) (world.write (text ++ "\n"))
    | .error fault => .done (.error fault) world
  | "print", [value] =>
    match outside.toText world value with
    | .ok text => .done (.ok .unit) (world.write text)
    | .error fault => .done (.error fault) world
  | "Error", [value] =>
    match outside.toText world value with
    | .ok text => .done (.ok (.error text)) world
    | .error fault => .done (.error fault) world
  | "parse_json", [raw] => answer (parseJson outside raw world)
  | "encode_json", [value] => answer (encodeJson outside value world, world)
  | "bounded_queue", [capacity, witness] =>
    let (result, world) := newQueue outside capacity witness world
    .done result world
  | "parallel_map", [values, worker, maxWorkers] => parallelMap values worker maxWorkers world
  | "task_scope", [capacity] =>
    let (result, world) := newScope capacity world
    .done result world
  | "task_spawn", [scope, worker, argument] =>
    let (result, world) := spawnTask declared scope worker argument world
    .done result world
  | name, arguments =>
    if "decimal".toList.isPrefixOf name.toList then answer (decimalBuiltin name arguments world)
    else
      match arguments with
      | handle :: arguments => handleBuiltin outside name handle arguments world
      | [] => .done (.error .typeError) world

def notCallable : Fault := ⟨"KS3101", "Çağrılabilir bir değer bekleniyordu."⟩

/-- `_invoke`, of everything but a function of the program. -/
def invokeValue (callee : Value) (arguments : List Value) (world : World) : Prim World :=
  match callee with
  | .constructor name =>
    match declared.constructors name with
    | some constructor => .done (invokeConstructor outside constructor arguments world) world
    | none => .done (.error notCallable) world
  | .str name =>
    match builtinArity name with
    | some expected =>
      if arguments.length = expected then invokeBuiltin outside declared name arguments world
      else .done (.error (arityFault name expected arguments)) world
    | none => .done (.error notCallable) world
  | .member receiver name => invokeMember outside declared receiver name arguments world
  | _ => .done (.error notCallable) world

/-! ## The runtime -/

/-- The record under a value: its type name, fields and type arguments. -/
def structParts (world : World) (value : Value) :
    Option (String × List (String × Value) × List String) :=
  match world.objectOf value with
  | some (.record typeName fields typeArguments) => some (typeName, fields, typeArguments)
  | _ => none

/-- Assign a field of a record. -/
def writeField (value : Value) (field : String) (item : Value) (world : World) : World :=
  match value, world.objectOf value with
  | .object address, some (.record typeName fields typeArguments) =>
    world.replace address (.record typeName (setEntry fields field item) typeArguments)
  | _, _ => world

/-- The value runtime of the interpreter over a world. -/
def runtime : Runtime World where
  host := outside.host
  constructor name := (declared.constructors name).map fun _ => .constructor name
  structs := declared.structs
  member := memberOf
  invoke := invokeValue outside declared
  capabilityContract _ _ _ _ _ _ := .error .typeError
  matchesType := outside.matchesType
  runtimeTypeName world value := (outside.typeNode world value).render
  containsCapability := containsCapability
  toText := outside.toText
  equal := outside.equal
  compare := outside.compare
  newStruct typeName fields typeArguments world :=
    world.allocate (.record typeName fields typeArguments)
  structParts := structParts
  writeField := writeField
  text_plain _ _ := rfl
  equal_int := outside.equal_int
  compare_int := outside.compare_int

end Koschei.Values
