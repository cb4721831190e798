import Koschei.Types.Contracts

/-!
# Runtime values against structural types

What the runtime bridge decides about a value at a moment of a run: its
structural type (`_runtime_type_node`), whether it matches a type
(`_matches_node`) and whether a capability can be reached from it
(`_contains_capability`). A value is taken with everything it holds, as a tree:
a capability token is known by its class, and any other host object (a response
of the network, a module, a function) by the name of its class.
-/

namespace Koschei

/-- The classes whose instances are capabilities. -/
inductive Capability where
  | systemCaps
  | netRoot | diskRoot | envRoot | processRoot | persistRoot | serveRoot
  | netCaps | diskCaps | diskReadCaps | envCaps | processCaps | persistCaps | serveCaps
  deriving DecidableEq

/-- The name the runtime gives a capability's type. -/
def Capability.typeName : Capability → String
  | .systemCaps => "SystemCaps"
  | .netRoot => "NetRoot" | .diskRoot => "DiskRoot" | .envRoot => "EnvRoot"
  | .processRoot => "ProcessRoot" | .persistRoot => "PersistRoot" | .serveRoot => "ServeRoot"
  | .netCaps => "NetCaps" | .diskCaps => "DiskCaps" | .diskReadCaps => "DiskReadCaps"
  | .envCaps => "EnvCaps" | .processCaps => "ProcessCaps" | .persistCaps => "PersistCaps"
  | .serveCaps => "ServeCaps"

/-- A runtime value with everything it holds. -/
inductive Held where
  | unit
  | bool (b : Bool)
  | int (i : Int)
  | float (bits : BitVec 64)
  | str (s : String)
  | error (message : String)
  | list (items : List Held)
  | map (entries : List (String × Held))
  | struct (typeName : String) (fields : List (String × Held)) (typeArguments : List TypeText)
  | enum (enumName variant : String) (payload : Option Held) (typeArguments : List TypeText)
  | capability (kind : Capability)
  | other (className : String)

namespace Held

/-- The type of a declared struct or enum with the recorded type arguments. -/
def declaredNode (name : String) (typeArguments : List TypeText) : TypeNode :=
  if typeArguments.isEmpty then .named name
  else .generic name (typeArguments.map TypeText.node)

mutual
/-- `_runtime_type_node`. -/
def runtimeTypeNode : Held → TypeNode
  | .unit => .named "Void"
  | .struct typeName _ typeArguments => declaredNode typeName typeArguments
  | .enum enumName variant payload typeArguments =>
    let carried := payloadNode payload
    if enumName = "Option" then .generic "Option" [carried]
    else if enumName = "Result" then
      if variant = "Ok" then .generic "Result" [carried, .unknown]
      else .generic "Result" [.unknown, carried]
    else declaredNode enumName typeArguments
  | .error _ => .named "Error"
  | .bool _ => .named "Bool"
  | .str _ => .named "String"
  | .float _ => .named "Float"
  | .int _ => .named "Int"
  | .list items => .generic "List" [TypeNode.unionType (itemNodes items)]
  | .map entries =>
    .generic "Map" [TypeNode.unionType (entries.map fun _ => TypeNode.named "String"),
      TypeNode.unionType (entryNodes entries)]
  | .capability kind => .named kind.typeName
  | .other className => .named className

def itemNodes : List Held → List TypeNode
  | [] => []
  | item :: items => runtimeTypeNode item :: itemNodes items

def entryNodes : List (String × Held) → List TypeNode
  | [] => []
  | (_, item) :: entries => runtimeTypeNode item :: entryNodes entries

def payloadNode : Option Held → TypeNode
  | none => .unknown
  | some item => runtimeTypeNode item
end

/-- `_matches_node` for a named type. -/
def matchesName (name : String) (value : Held) : Bool := if name = "List" then
    match value with
    | .list _ => true
    | _ => false
  else if name = "Map" then
    match value with
    | .map _ => true
    | _ => false
  else if name = "Option" ∨ name = "Result" then
    match value with
    | .enum enumName _ _ _ => enumName == name
    | _ => false
  else
    match value.runtimeTypeNode with
    | .generic found _ => found == name
    | node => decide (node = .named name)

/-- `_matches_node` for `Option<T>`, given how a payload is matched. -/
def matchesOption (item : Held → Bool) : Held → Bool
  | .enum enumName variant payload _ =>
    enumName == "Option" &&
      (variant == "None" ||
        (variant == "Some" && (match payload with
          | none => false
          | some payload => item payload)))
  | _ => false

/-- `_matches_node` for `Result<T, E>`. -/
def matchesResult (ok err : Held → Bool) : Held → Bool
  | .enum enumName variant payload _ =>
    enumName == "Result" &&
      (match payload with
      | none => false
      | some payload =>
        if variant = "Ok" then ok payload
        else if variant = "Err" then err payload
        else false)
  | _ => false

/-- `_matches_node` for `List<T>`. -/
def matchesList (item : Held → Bool) : Held → Bool
  | .list items => items.all item
  | _ => false

/-- `_matches_node` for `Map<K, V>`. -/
def matchesMap (key item : Held → Bool) : Held → Bool
  | .map entries => entries.all fun entry => key (.str entry.1) && item entry.2
  | _ => false

/-- `_matches_node` for a generic type of the program. -/
def matchesDeclared (name : String) (arguments : List TypeNode) (value : Held) : Bool :=
  match value.runtimeTypeNode with
  | .named found =>
    found == name && TypeNode.isAssignable (.generic name arguments) (.named found)
  | .generic found others =>
    found == name && TypeNode.isAssignable (.generic name arguments) (.generic found others)
  | _ => false

/-- `_matches_node` for a generic type, given how its arguments are matched. -/
def matchesGeneric (name : String) (arguments : List TypeNode) (parts : List (Held → Bool))
    (value : Held) : Bool :=
  match parts with
  | [item] =>
    if name = "Option" then matchesOption item value
    else if name = "List" then matchesList item value
    else matchesDeclared name arguments value
  | [first, second] =>
    if name = "Result" then matchesResult first second value
    else if name = "Map" then matchesMap first second value
    else matchesDeclared name arguments value
  | _ => matchesDeclared name arguments value

mutual
/-- `_matches_node`. -/
def matchesNode : TypeNode → Held → Bool
  | .unknown => fun _ => true
  | .union options => matchesAny options
  | .named name => matchesName name
  | .generic name arguments => matchesGeneric name arguments (matchers arguments)
  | .variable _ => fun _ => false

def matchesAny : List TypeNode → Held → Bool
  | [] => fun _ => false
  | option :: options => fun value => matchesNode option value || matchesAny options value

def matchers : List TypeNode → List (Held → Bool)
  | [] => []
  | node :: nodes => matchesNode node :: matchers nodes
end

mutual
/-- `_contains_capability`. -/
def containsCapability : Held → Bool
  | .capability _ => true
  | .struct _ fields _ => entriesContain fields
  | .enum _ _ payload _ => payloadContains payload
  | .list items => itemsContain items
  | .map entries => entriesContain entries
  | .unit | .bool _ | .int _ | .float _ | .str _ | .error _ | .other _ => false

def itemsContain : List Held → Bool
  | [] => false
  | item :: items => containsCapability item || itemsContain items

def entriesContain : List (String × Held) → Bool
  | [] => false
  | (_, item) :: entries => containsCapability item || entriesContain entries

def payloadContains : Option Held → Bool
  | none => false
  | some item => containsCapability item
end

end Held

end Koschei
