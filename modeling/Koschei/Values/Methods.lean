import Koschei.Values.World

/-!
# Members and methods of values

`_member` and `_invoke_member` of the interpreter with every extension installed:
what a member of a value is, and what a bound method does. A method that calls a
function of the program for each item of a List is one loop, `forEach`, with the
method's own way of taking a result.
-/

namespace Koschei.Values

/-! ## Members -/

/-- `LIST_METHODS`, with the methods the extensions add. -/
def listMethods : List String :=
  ["length", "get", "push", "contains", "sort", "filter", "take", "first_difference", "find",
    "sum", "min", "max", "unique", "flatten", "chunks", "map", "any", "partition", "scan"]

/-- `MAP_METHODS`, with the methods the extensions add. -/
def mapMethods : List String :=
  ["get", "set", "keys", "contains", "keys_sorted_by_value", "merge", "add"]

def textMethods : List String :=
  ["length", "to_int", "to_float", "contains", "trim", "split", "join"]

/-- The methods a capability hands out; a token of `SystemCaps` has roots instead. -/
def capabilityMethods : Capability → List String
  | .systemCaps => []
  | .netRoot | .envRoot | .processRoot | .persistRoot | .serveRoot => ["allow"]
  | .diskRoot => ["allow", "allow_read_only"]
  | .netCaps => ["get", "post", "put", "delete", "request"]
  | .diskCaps | .diskReadCaps =>
    ["read", "read_file", "write", "write_file", "list", "delete"]
  | .envCaps => ["get"]
  | .processCaps => ["run", "spawn"]
  | .persistCaps => ["load", "commit"]
  | .serveCaps => ["exchange"]

/-- `isinstance(token, _NarrowedCapability)`. -/
def isNarrowed : Capability → Bool
  | .systemCaps | .netRoot | .diskRoot | .envRoot | .processRoot => false
  | _ => true

def noMember (name : String) : Fault := ⟨"KS3101", "Tanımsız alan veya metot: '" ++ name ++ "'."⟩

def boundMember (receiver : Value) (name : String) (methods : List String)
    (missing : String) : Except Fault Value :=
  if methods.contains name then .ok (.member receiver name) else .error ⟨"KS3101", missing⟩

def capabilityMember (receiver : Value) (kind : Capability) (roots : List (String × Value))
    (name : String) : Except Fault Value :=
  match roots.lookup name with
  | some root => .ok root
  | none =>
    if (capabilityMethods kind).contains name then .ok (.member receiver name)
    else if isNarrowed kind && ["allow", "allow_read_only"].contains name then
      .error ⟨"KS3403", "Daraltılmış yetki '" ++ name ++ "' ile yeniden genişletilemez."⟩
    else .error (noMember name)

/-- `_member`, for a receiver that is no module. -/
def memberOf (world : World) (receiver : Value) (name : String) : Except Fault Value :=
  match receiver with
  | .list _ =>
    boundMember receiver name listMethods ("List üzerinde '" ++ name ++ "' metodu yok.")
  | .map _ => boundMember receiver name mapMethods ("Map üzerinde '" ++ name ++ "' metodu yok.")
  | .str _ => boundMember receiver name textMethods (noMember name).message
  | .object _ =>
    match world.objectOf receiver with
    | some (.record typeName fields _) =>
      match fields.lookup name with
      | some value => .ok value
      | none => .error ⟨"KS3101", "'" ++ typeName ++ "' struct'ında '" ++ name ++
          "' alanı yok."⟩
    | some (.capability kind _ roots) => capabilityMember receiver kind roots name
    | some (.response _ _) => boundMember receiver name ["text", "status"] (noMember name).message
    | _ => .error (noMember name)
  | _ => .error (noMember name)

/-! ## Methods of texts -/

/-- The texts of a list of nothing but texts. -/
def texts? : List Value → Option (List String)
  | [] => some []
  | .str s :: items => (texts? items).map (s :: ·)
  | _ :: _ => none

/-- The numbers of a list of nothing but Ints. -/
def ints? : List Value → Option (List Int)
  | [] => some []
  | .int i :: items => (ints? items).map (i :: ·)
  | _ :: _ => none

/-- The numbers of a list of nothing but doubles. -/
def floats? : List Value → Option (List (BitVec 64))
  | [] => some []
  | .float bits :: items => (floats? items).map (bits :: ·)
  | _ :: _ => none

variable (outside : Outside)

/-- `String.to_int`. -/
def textToInt (receiver : String) : Value :=
  match Datum.int? outside.library (strip receiver.toList) with
  | some i => .int i
  | none => .error ("Int dönüşümü başarısız: " ++ receiver)

/-- `String.to_float`. -/
def textToFloat (receiver : String) : Value :=
  match outside.doubles.parse (ofList (strip receiver.toList)) with
  | some bits => .float bits
  | none => .error ("Float dönüşümü başarısız: " ++ receiver)

/-- `String.split`. -/
def textSplit (receiver : String) (separator : Value) : Value := match separator with
  | .str separator =>
    if separator = "" then .error "String.split() ayıracı boş olamaz"
    else .list ((splitText receiver separator).map Value.str)
  | _ => .error "String.split() ayıracı String olmalıdır"

/-- `String.join`. -/
def textJoin (receiver : String) (values : Value) : Value := match values with
  | .list values =>
    match texts? values with
    | some texts => .str (receiver.intercalate texts)
    | none => .error "String.join() yalnızca String öğeleri birleştirir"
  | _ => .error "String.join() bir List bekler"

/-- `_invoke_member` on a text; `none` is a wrong number of arguments. -/
def textMethod (world : World) (receiver : String) (name : String) (arguments : List Value) :
    Option (Except Fault Value) :=
  match name, arguments with
  | "length", [] => some (hostLength receiver.length)
  | "to_int", [] => some (.ok (textToInt outside receiver))
  | "to_float", [] => some (.ok (textToFloat outside receiver))
  | "contains", [needle] =>
    some (.ok (.bool (textContains receiver (outside.hostText world needle))))
  | "trim", [] => some (.ok (.str (ofList (strip receiver.toList))))
  | "split", [separator] => some (.ok (textSplit receiver separator))
  | "join", [values] => some (.ok (textJoin receiver values))
  | _, _ => none

/-! ## Methods of Lists without a callback -/

/-- `List.get`, which answers with an Option. -/
def listGet (items : List Value) (index : Value) : Value := match index with
  | .int i =>
    if i < 0 then optionNone
    else
      match items[i.toNat]? with
      | some item => optionSome item
      | none => optionNone
  | _ => .error "Liste indeksi Int olmalıdır"

/-- The order `sorted` puts numbers and texts in. -/
def inOrder (left right : Value) : Bool := match outside.host.compareValue .lt right left with
  | .ok less => !less
  | .error _ => false

/-- `type(value) in {int, float}`. -/
def isNumber : Value → Bool
  | .int _ | .float _ => true
  | _ => false

/-- `isinstance(value, str)`. -/
def isText : Value → Bool
  | .str _ => true
  | _ => false

/-- `List.sort`. -/
def listSort (items : List Value) : Value :=
  if items.all isNumber || items.all isText then .list (items.mergeSort (inOrder outside))
  else .error "List.sort() yalnızca homojen String veya sayısal öğeleri sıralar"

/-- `List.take`. -/
def listTake (items : List Value) (count : Value) : Value := match count with
  | .int count => if count ≤ 0 then .list [] else .list (items.take count.toNat)
  | _ => .error "List.take() öğe sayısı Int olmalıdır"

/-- The first position at which two lists differ, counted from `position`. -/
def differenceFrom (world : World) : Nat → List Value → List Value → Except Fault Value
  | _, [], [] => .ok optionNone
  | position, [], _ :: _ | position, _ :: _, [] => do
    pure (optionSome (← hostLength position))
  | position, item :: items, other :: others => do
    if ← outside.equal world item other then differenceFrom world (position + 1) items others
    else pure (optionSome (← hostLength position))

/-- `List.first_difference`. -/
def firstDifference (world : World) (items : List Value) (other : Value) : Except Fault Value :=
  match other with
  | .list others => differenceFrom outside world 0 items others
  | _ => .ok (.error "List.first_difference() bir List bekler")

/-- `_reduce_int` for `sum`. -/
def sumInts : List Int → Int → Value
  | [], total => resultOk (.int total)
  | i :: rest, total =>
    if intMin ≤ total + i ∧ total + i ≤ intMax then sumInts rest (total + i)
    else resultError "KS3501: List.sum() işaretli 64-bit Int aralığını aştı"

/-- The item that comes before all others in an order. -/
def pick {α : Type} (before : α → α → Bool) : α → List α → α
  | best, [] => best
  | best, item :: rest => pick before (if before item best then item else best) rest

/-- `_reduce_int`. -/
def reduceInts (operation : String) (first : Int) (rest : List Int) : Value :=
  if operation = "sum" then sumInts (first :: rest) 0
  else if operation = "min" then
    resultOk (.int (pick (fun i best => decide (i < best)) first rest))
  else resultOk (.int (pick (fun i best => decide (best < i)) first rest))

/-- `_reduce_float` for `sum`. -/
def sumFloats : List (BitVec 64) → BitVec 64 → Value
  | [], total => resultOk (.float total)
  | bits :: rest, total =>
    match outside.doubles.arith .add (.float total) (.float bits) with
    | .ok next =>
      if outside.doubles.isFinite next then sumFloats rest next
      else resultError "List.sum() sonlu Float aralığının dışına çıktı"
    | .error fault => resultError fault.message

/-- `_reduce_float`. -/
def reduceFloats (operation : String) (first : BitVec 64) (rest : List (BitVec 64)) : Value :=
  if !(first :: rest).all outside.doubles.isFinite then
    resultError ("List." ++ operation ++ "() NaN veya Infinity kabul etmez")
  else if operation = "sum" then sumFloats outside (first :: rest) 0
  else if operation = "min" then
    resultOk (.float (pick (fun bits best => outside.doubles.compare .lt (.float bits)
      (.float best)) first rest))
  else
    resultOk (.float (pick (fun bits best => outside.doubles.compare .gt (.float bits)
      (.float best)) first rest))

/-- `List.sum`, `List.min` and `List.max`. -/
def listReduce (operation : String) (items : List Value) : Value := match items with
  | [] => resultError ("List." ++ operation ++ "() boş List üzerinde tanımlı değildir")
  | items =>
    match ints? items, floats? items with
    | some (first :: rest), _ => reduceInts operation first rest
    | _, some (first :: rest) => reduceFloats outside operation first rest
    | _, _ => resultError ("List." ++ operation ++ "() homojen Int veya Float öğeler bekler")

/-- `List.unique`: the first of the items that are structurally equal. -/
def uniqueItems (world : World) (items : List Value) : List Value :=
  items.foldl (fun kept candidate =>
    if kept.any fun existing => outside.structurallyEqual world existing candidate then kept
    else kept ++ [candidate]) []

/-- `List.flatten`. -/
def flattenItems : List Value → Option (List Value)
  | [] => some []
  | .list group :: items => (flattenItems items).map (group ++ ·)
  | _ :: _ => none

/-- The pieces of a list, of one size but the last; the first argument bounds their number. -/
def pieces (size : Nat) : Nat → List Value → List Value
  | _, [] => []
  | 0, _ => []
  | bound + 1, items => .list (items.take size) :: pieces size bound (items.drop size)

/-- `List.chunks`. -/
def listChunks (items : List Value) (size : Value) : Value := match size with
  | .int size =>
    if size ≤ 0 then resultError "List.chunks() parça boyutu sıfırdan büyük olmalıdır"
    else resultOk (.list (pieces size.toNat items.length items))
  | _ => resultError "List.chunks() parça boyutu Int olmalıdır"

/-- The fault of a method that refuses a List or Map holding a capability. -/
def carriesFault (message : String) : Fault := ⟨"KS3401", message⟩

/-- A method that refuses a value holding a capability. -/
def unlessCarrying (world : World) (values : List Value) (message : String)
    (result : Except Fault Value) : Except Fault Value :=
  if values.any (containsCapability world) then .error (carriesFault message) else result

/-- The methods of Lists that call no function; `none` is a wrong number of arguments, or
another method. -/
def listMethod (world : World) (items : List Value) (name : String) (arguments : List Value) :
    Option (Except Fault Value) :=
  match name, arguments with
  | "length", [] => some (hostLength items.length)
  | "get", [index] => some (.ok (listGet items index))
  | "push", [item] =>
    some (unlessCarrying world [item] ("Capability taşıyan değerler List içine konamaz; " ++
      "runtime type-laundering girişimini reddetti.") (.ok (.list (items ++ [item]))))
  | "contains", [item] => some (do
      pure (.bool (← items.anyM fun existing => outside.equal world existing item)))
  | "sort", [] =>
    some (unlessCarrying world [.list items] "Capability taşıyan List sıralanamaz."
      (.ok (listSort outside items)))
  | "take", [count] => some (.ok (listTake items count))
  | "first_difference", [other] => some (firstDifference outside world items other)
  | "sum", [] | "min", [] | "max", [] =>
    some (unlessCarrying world [.list items] ("Capability taşıyan List üzerinde " ++ name ++
      "() çalıştırılamaz.") (.ok (listReduce outside name items)))
  | "unique", [] =>
    some (unlessCarrying world [.list items] ("Capability taşıyan List üzerinde unique() " ++
      "çalıştırılamaz.") (.ok (.list (uniqueItems outside world items))))
  | "flatten", [] =>
    some (unlessCarrying world [.list items] ("Capability taşıyan List üzerinde flatten() " ++
      "çalıştırılamaz.") (.ok (match flattenItems items with
        | some flat => .list flat
        | none => .error "List.flatten() tüm öğelerin List olmasını bekler")))
  | "chunks", [size] =>
    some (unlessCarrying world [.list items] ("Capability taşıyan List üzerinde chunks() " ++
      "çalıştırılamaz.") (.ok (listChunks items size)))
  | _, _ => none

/-! ## Methods of Maps -/

/-- A method of Maps that takes a key. -/
def withKey (key : Value) (use : String → Except Fault Value) : Except Fault Value := match key with
  | .str key => use key
  | _ => .ok (.error "Map anahtarı String olmalıdır")

/-- `Map.get`. -/
def mapGet (entries : List (String × Value)) (key : String) : Value := match entries.lookup key with
  | some item => item
  | none => .error ("Map anahtarı bulunamadı: " ++ key)

/-- `_rank_kind`: whether the values of a Map can be ranked. -/
def isRanked (values : List Value) : Bool :=
  (ints? values).isSome || (floats? values).isSome || (texts? values).isSome

/-- The order of `keys_sorted_by_value`: by the value, and by the key where values are
equal. -/
def rankedBefore (descending : Bool) (left right : String × Value) : Bool :=
  let less (a b : Value) := (outside.host.compareValue .lt a b).toOption.getD false
  let (first, second) := if descending then (right.2, left.2) else (left.2, right.2)
  less first second || (!less second first && decide (left.1 ≤ right.1))

/-- `Map.keys_sorted_by_value`. -/
def keysSortedByValue (entries : List (String × Value)) (descending : Bool) : Value :=
  if isRanked (entries.map snd) then
    .list ((entries.mergeSort (rankedBefore outside descending)).map fun entry => .str entry.1)
  else .error ("Map.keys_sorted_by_value() yalnızca homojen Int, Float veya " ++
    "String değerleri sıralar")

/-- `Map.merge`. -/
def mergeEntries (entries others : List (String × Value)) : List (String × Value) :=
  others.foldl (fun merged entry => setEntry merged entry.1 entry.2) entries

/-- `Map.add` on a Map that may have the key already. -/
def addEntry (entries : List (String × Value)) (key : String) (delta : Value) :
    Except Fault Value :=
  match entries.lookup key with
  | none => .ok (.map (setEntry entries key delta))
  | some current =>
    match current, delta with
    | .int i, .int j =>
      if intMin ≤ i + j ∧ i + j ≤ intMax then .ok (.map (setEntry entries key (.int (i + j))))
      else .ok (.error ("KS3501: Int taşması: '+' işlemi işaretli 64-bit aralığın dışına " ++
        "çıktı."))
    | .float x, .float y =>
      (outside.doubles.arith .add (.float x) (.float y)).map fun total =>
        .map (setEntry entries key (.float total))
    | _, _ => .ok (.error "Map.add() mevcut değer ile delta aynı sayısal tipte olmalıdır")

/-- `Map.add`. -/
def mapAdd (entries : List (String × Value)) (key delta : Value) : Except Fault Value :=
  match key with
  | .str key =>
    if isNumber delta then addEntry outside entries key delta
    else .ok (.error "Map.add() delta değeri Int veya Float olmalıdır")
  | _ => .ok (.error "Map.add() anahtarı String olmalıdır")

/-- The methods of Maps; `none` is a wrong number of arguments, or another method. -/
def mapMethod (world : World) (entries : List (String × Value)) (name : String)
    (arguments : List Value) : Option (Except Fault Value) :=
  match name, arguments with
  | "get", [key] => some (withKey key fun key => .ok (mapGet entries key))
  | "set", [key, item] => some (withKey key fun key =>
    unlessCarrying world [item] ("Capability taşıyan değerler Map içine konamaz; runtime " ++
      "type-laundering girişimini reddetti.") (.ok (.map (setEntry entries key item))))
  | "keys", [] => some (.ok (.list (entries.map fun entry => .str entry.1)))
  | "contains", [key] => some (withKey key fun key => .ok (.bool (entries.lookup key).isSome))
  | "keys_sorted_by_value", [.bool descending] =>
    some (unlessCarrying world [.map entries] "Capability taşıyan Map değerleri sıralanamaz."
      (.ok (keysSortedByValue outside entries descending)))
  | "keys_sorted_by_value", [_] =>
    some (.ok (.error "Map.keys_sorted_by_value() descending argümanı Bool olmalıdır"))
  | "merge", [.map others] =>
    some (unlessCarrying world [.map entries, .map others] ("Capability taşıyan Map değerleri " ++
      "birleştirilemez.") (.ok (.map (mergeEntries entries others))))
  | "merge", [_] => some (.ok (.error "Map.merge() bir Map bekler"))
  | "add", [key, delta] =>
    some (unlessCarrying world [.map entries, delta] ("Capability taşıyan Map veya delta " ++
      "üzerinde add() çalıştırılamaz.") (mapAdd outside entries key delta))
  | _, _ => none

/-! ## Methods with a callback -/

/-- What a loop does with the result of one call. -/
inductive Taken (α : Type) where
  | finish (result : Except Fault Value)
  | next (accumulator : α)

/-- Call a function for one item after the other. A fault of a call is the loop's. -/
def forEach {α : Type} (moduleKey name : String) (arguments : α → Value → List Value)
    (take : α → Value → Value → World → Taken α) (finish : α → Value) :
    List Value → α → World → Prim World
  | [], accumulator, world => .done (.ok (finish accumulator)) world
  | item :: rest, accumulator, world =>
    .call moduleKey name (arguments accumulator item) world fun result world =>
      match result with
      | .error fault => .done (.error fault) world
      | .ok value =>
        match take accumulator item value world with
        | .finish result => .done result world
        | .next accumulator => forEach moduleKey name arguments take finish rest accumulator world

/-- The answer of a predicate: an Error ends the loop, and so does what is no Bool. -/
def decision {α : Type} (method : String) (value : Value) (next : Bool → Taken α) : Taken α :=
  match value with
  | .error message => .finish (.ok (.error message))
  | .bool b => next b
  | _ => .finish (.ok (.error ("List." ++ method ++ "() predicate'i Bool döndürmelidir")))

/-- `List.filter`. -/
def filterItems (moduleKey name : String) (items : List Value) : World → Prim World :=
  forEach moduleKey name (fun _ item => [item])
    (fun kept item value _ => decision "filter" value fun b =>
      .next (if b then kept ++ [item] else kept)) Value.list items []

/-- `List.find`. -/
def findItem (moduleKey name : String) (items : List Value) : World → Prim World :=
  forEach moduleKey name (fun _ item => [item])
    (fun _ item value _ => decision "find" value fun b =>
      if b then .finish (.ok (optionSome item)) else .next ()) (fun _ => optionNone) items ()

/-- `List.any`. -/
def anyItem (moduleKey name : String) (items : List Value) : World → Prim World :=
  forEach moduleKey name (fun _ item => [item])
    (fun _ _ value _ => decision "any" value fun b =>
      if b then .finish (.ok (.bool true)) else .next ()) (fun _ => .bool false) items ()

/-- `List.partition`. -/
def partitionItems (moduleKey name : String) (items : List Value) : World → Prim World :=
  forEach moduleKey name (fun _ item => [item])
    (fun (matching, rejected) item value _ => decision "partition" value fun b =>
      .next (if b then (matching ++ [item], rejected) else (matching, rejected ++ [item])))
    (fun (matching, rejected) => .list [.list matching, .list rejected]) items ([], [])

/-- A result that is collected: an Error ends the loop, and a capability is refused. -/
def collected (world : World) (results : List Value) (value : Value) (message : String) :
    Taken (List Value) :=
  match value with
  | .error message => .finish (.ok (.error message))
  | value =>
    if containsCapability world value then .finish (.error (carriesFault message))
    else .next (results ++ [value])

/-- `List.map`. -/
def mapItems (moduleKey name : String) (items : List Value) : World → Prim World :=
  forEach moduleKey name (fun _ item => [item])
    (fun results _ value world => collected world results value
      "List.map() callback'i capability döndüremez.") Value.list items []

/-- `List.scan`: the accumulator is the latest result, or the initial value. -/
def scanItems (moduleKey name : String) (initial : Value) (items : List Value) :
    World → Prim World :=
  forEach moduleKey name (fun results item => [results.getLastD initial, item])
    (fun results _ value world => collected world results value
      "List.scan() reducer'ı capability döndüremez.") Value.list items []

/-- The methods of Lists that call a function, with the number of arguments, the number of
parameters they require of the function (`filter` and `find` require none), what they answer
to anything else, and whether they refuse a List that holds a capability. -/
structure CallbackMethod where
  arguments : Nat
  parameters : Option (Nat × String)
  expects : String
  refuses : Option String

def callbackMethod : String → Option CallbackMethod
  | "filter" => some ⟨1, none,
      "List.filter() yerel, adlandırılmış bir predicate fonksiyonu bekler", none⟩
  | "find" => some ⟨1, none,
      "List.find() yerel, adlandırılmış bir predicate fonksiyonu bekler", none⟩
  | "any" => some ⟨1, some (1, "List.any() predicate'i 1 parametre almalıdır"),
      "List.any() yerel, adlandırılmış ve tek parametreli bir predicate bekler",
      some "Capability taşıyan List üzerinde any() çalıştırılamaz."⟩
  | "partition" => some ⟨1, some (1, "List.partition() predicate'i 1 parametre almalıdır"),
      "List.partition() yerel, adlandırılmış ve tek parametreli bir predicate bekler",
      some "Capability taşıyan List üzerinde partition() çalıştırılamaz."⟩
  | "map" => some ⟨1, some (1, "List.map() callback'i 1 parametre almalıdır"),
      "List.map() yerel, adlandırılmış bir fonksiyon bekler",
      some "Capability taşıyan List üzerinde map() çalıştırılamaz."⟩
  | "scan" => some ⟨2, some (2, "List.scan() reducer'ı 2 parametre almalıdır"),
      "List.scan() yerel, adlandırılmış ve iki parametreli bir reducer bekler",
      some "Capability taşıyan List veya başlangıç değeri üzerinde scan() çalıştırılamaz."⟩
  | _ => none

def callbackLoop (method moduleKey name : String) (arguments items : List Value) :
    World → Prim World :=
  match method with
  | "filter" => filterItems moduleKey name items
  | "find" => findItem moduleKey name items
  | "any" => anyItem moduleKey name items
  | "partition" => partitionItems moduleKey name items
  | "map" => mapItems moduleKey name items
  | _ => scanItems moduleKey name (arguments.headD .unit) items

/-- A callback method: its checks in the order of the source, then its loop. The function is
the last argument. -/
def invokeCallback (declared : Declared) (method : String) (contract : CallbackMethod)
    (items arguments : List Value) (world : World) : Prim World :=
  if arguments.length ≠ contract.arguments then
    .done (.error (arityFault method contract.arguments arguments)) world
  else if contract.refuses.isSome &&
      (.list items :: arguments.dropLast).any (containsCapability world) then
    .done (.error (carriesFault (contract.refuses.getD ""))) world
  else
    match arguments.getLast? with
    | some (.function moduleKey name) =>
      match contract.parameters with
      | some (count, message) =>
        if declared.parameters moduleKey name = some count then
          callbackLoop method moduleKey name arguments items world
        else .done (.ok (.error message)) world
      | none => callbackLoop method moduleKey name arguments items world
    | _ => .done (.ok (.error contract.expects)) world

end Koschei.Values
