import Koschei.Types.Text

/-!
# Type contracts

`is_assignable`, and the part of `TypeContractValidator` that looks at types:
the declarations in scope, `validate_type` and `is_sensitive`. A declaration
keeps its field and payload types as the source writes them; binding its type
parameters is `declaration_type`.

`is_sensitive` follows declarations and has no bound of its own, so it runs
here with fuel; no result means that the fuel did not suffice.
-/

namespace Koschei

namespace TypeNode

mutual
/-- `bind_type_variables`: the declared generic names become type variables. -/
def bindTypeVariables (names : List String) : TypeNode → TypeNode
  | .named name => if names.contains name then .variable name else .named name
  | .generic name arguments => .generic name (bindAll names arguments)
  | .union options => unionType (bindAll names options)
  | .unknown => .unknown
  | .variable name => .variable name

def bindAll (names : List String) : List TypeNode → List TypeNode
  | [] => []
  | node :: nodes => bindTypeVariables names node :: bindAll names nodes
end

mutual
/-- `is_assignable`: whether every possible actual value satisfies the expected type. -/
def isAssignable (expected actual : TypeNode) : Bool :=
  if expected = .unknown ∨ actual = .unknown then true
  else
    match expected, actual with
    | expected, .union options => assignableFromAll expected options
    | .union options, actual => assignableToAny options actual
    | expected, actual =>
      if expected = actual then true
      else
        match expected, actual with
        | .named name, .generic other _ => name == other
        | .generic name _, .named other => name == other
        | .generic name arguments, .generic other others =>
          name == other && arguments.length == others.length &&
            assignablePairs arguments others
        | _, _ => false
termination_by sizeOf expected + sizeOf actual

def assignableFromAll (expected : TypeNode) (options : List TypeNode) : Bool := match options with
  | [] => true
  | option :: options => isAssignable expected option && assignableFromAll expected options
termination_by sizeOf expected + sizeOf options

/-- Some option of the expected type takes the actual type. -/
def assignableToAny (options : List TypeNode) (actual : TypeNode) : Bool := match options with
  | [] => false
  | option :: options => isAssignable option actual || assignableToAny options actual
termination_by sizeOf options + sizeOf actual

def assignablePairs (arguments others : List TypeNode) : Bool := match arguments, others with
  | argument :: arguments, other :: others =>
    isAssignable argument other && assignablePairs arguments others
  | _, _ => true
termination_by sizeOf arguments + sizeOf others
end

end TypeNode

/-! ## Declarations -/

/-- A struct as the validator sees it: its type parameters and the types of its fields. -/
structure StructShape where
  typeParameters : List String
  fields : List (String × TypeNode)
  deriving Inhabited

/-- An enum as the validator sees it: its type parameters and the payload of each variant. -/
structure EnumShape where
  typeParameters : List String
  variants : List (String × Option TypeNode)
  deriving Inhabited

/-- The structs and enums in scope, those of imported modules included. -/
structure Declarations where
  structs : List (String × StructShape)
  enums : List (String × EnumShape)
  deriving Inhabited

namespace Declarations

variable (decls : Declarations)

def struct? (name : String) : Option StructShape := decls.structs.reverse.lookup name

def enum? (name : String) : Option EnumShape := decls.enums.reverse.lookup name

/-- The type parameters of `_generic_declaration`: a struct comes before an enum. -/
def typeParameters? (name : String) : Option (List String) := match decls.struct? name with
  | some shape => some shape.typeParameters
  | none => (decls.enum? name).map EnumShape.typeParameters

/-- The declared types of the fields, or of the payloads, with the type parameters bound. -/
def components? (name : String) : Option (List TypeNode) := match decls.struct? name with
  | some shape =>
    some (shape.fields.map fun field => field.2.bindTypeVariables shape.typeParameters)
  | none =>
    (decls.enum? name).map fun shape =>
      (shape.variants.filterMap snd).map
        (TypeNode.bindTypeVariables shape.typeParameters)

end Declarations

/-- `CAPABILITY_TYPES`. -/
def capabilityTypes : List String :=
  ["NetRoot", "DiskRoot", "EnvRoot", "ProcessRoot", "PersistRoot", "ServeRoot", "SystemCaps",
    "NetCaps", "DiskCaps", "DiskReadCaps", "EnvCaps", "ProcessCaps", "PersistCaps",
    "ServeCaps"]

/-- `GENERIC_ARITY`. -/
def genericArity (name : String) : Option Nat := if name = "Option" then some 1
  else if name = "Result" then some 2
  else if name = "List" then some 1
  else if name = "Map" then some 2
  else none

/-! ## Sensitivity -/

mutual
/-- `is_sensitive`: whether a capability can be reached from the type. -/
def isSensitive (decls : Declarations) :
    (fuel : Nat) → (seen : List String) → TypeNode → Option Bool
  | 0, _, _ => none
  | _ + 1, _, .unknown => some false
  | _ + 1, _, .variable _ => some false
  | fuel + 1, seen, .union options => anySensitive decls fuel seen options
  | fuel + 1, seen, .generic name arguments => do
    if ← anySensitive decls fuel seen arguments then return true
    match decls.typeParameters? name, decls.components? name with
    | some parameters, some components =>
      let key := (TypeNode.generic name arguments).render
      if seen.contains key then return false
      let mapping := parameters.zip arguments
      anySensitive decls fuel (key :: seen) (components.map (TypeNode.substitute mapping))
    | _, _ => return false
  | fuel + 1, seen, .named name =>
    if capabilityTypes.contains name then some true
    else if seen.contains name then some false
    else
      match decls.components? name with
      | some components => anySensitive decls fuel (name :: seen) components
      | none => some false

def anySensitive (decls : Declarations) :
    (fuel : Nat) → (seen : List String) → List TypeNode → Option Bool
  | _, _, [] => some false
  | 0, _, _ :: _ => none
  | fuel + 1, seen, node :: nodes => do
    if ← isSensitive decls fuel seen node then return true
    anySensitive decls fuel seen nodes
end

/-- `is_sensitive` returns the answer. -/
def Sensitivity (decls : Declarations) (node : TypeNode) (answer : Bool) : Prop :=
  ∃ fuel, isSensitive decls fuel [] node = some answer

/-! ## Validation -/

/-- What `validate_type` finds wrong with one type node, its arguments apart. -/
inductive TypeFault where
  | missingArguments
  | notGeneric
  | wrongArity
  | mapKey
  | hiddenCapability
  deriving DecidableEq

/-- The arity `validate_type` expects of a generic type. -/
def expectedArity (decls : Declarations) (name : String) : Option Nat :=
  match genericArity name with
  | some arity => some arity
  | none => (decls.typeParameters? name).map List.length

/-- The checks of `validate_type` on a generic type before its arguments. -/
def checkGeneric (decls : Declarations) (name : String) (arguments : List TypeNode) :
    Except TypeFault Unit :=
  match expectedArity decls name with
  | none => .error .notGeneric
  | some arity =>
    if (decls.typeParameters? name).isSome ∧ arity = 0 then .error .notGeneric
    else if arguments.length ≠ arity then .error .wrongArity
    else if name = "Map" then
      match arguments with
      | .variable _ :: _ | .unknown :: _ => .ok ()
      | key :: _ => if key = .string then .ok () else .error .mapKey
      | [] => .ok ()
    else .ok ()

mutual
/-- `validate_type`; a missing result is a sensitivity search that ran out of fuel. -/
def validateType (decls : Declarations) (fuel : Nat) : TypeNode → Option (Except TypeFault Unit)
  | .unknown | .variable _ => some (.ok ())
  | .union options => validateAll decls fuel options
  | .named name =>
    match decls.typeParameters? name with
    | some (_ :: _) => some (.error .missingArguments)
    | _ => some (.ok ())
  | .generic name arguments =>
    match checkGeneric decls name arguments with
    | .error fault => some (.error fault)
    | .ok () =>
      match validateAll decls fuel arguments with
      | some (.ok ()) =>
        (anySensitive decls fuel [] arguments).map fun found =>
          if found then .error .hiddenCapability else .ok ()
      | result => result

def validateAll (decls : Declarations) (fuel : Nat) : List TypeNode → Option (Except TypeFault Unit)
  | [] => some (.ok ())
  | node :: nodes =>
    match validateType decls fuel node with
    | some (.ok ()) => validateAll decls fuel nodes
    | result => result
end

/-- `validate_type` accepts the type. -/
def Accepted (decls : Declarations) (node : TypeNode) : Prop :=
  ∃ fuel, validateType decls fuel node = some (.ok ())

end Koschei
