import Koschei.Core.Host
import Koschei.Lib.Computation

/-!
# The value runtime the lanes share

The interpreter and the MIR executor evaluate the same programs with the same
value runtime: members, builtins, runtime type checks, rendering, equality and
capability confinement are implemented once, and the executor reaches them
through a facade. `Runtime` is that facade, over an abstract host state that
holds everything else the runtime owns (the output written so far, queues, the
fields of records, the outside world). Nothing is assumed about it.

A primitive may call a Koschei function back (`List.map` does, and joining a
task scope does). Its run is therefore a tree: it ends, or it asks for a call and
goes on with the call's result, a failure included.
-/

namespace Koschei

open Lib

/-- A run of a primitive over the host state. -/
inductive Prim (σ : Type) where
  | done (result : Except Fault Value) (state : σ)
  | call (moduleKey name : String) (arguments : List Value) (state : σ)
      (resume : Except Fault Value → σ → Prim σ)

/-- The type arguments bound so far while a generic call is checked. -/
abbrev TypeBindings := Option (List (String × String))

/-- A field of a struct declaration: its structural type and the names written in the
source. -/
structure StructField where
  name : String
  type : TypeNode
  names : List String
  deriving BEq, Inhabited

/-- A struct declaration. -/
structure StructDeclaration where
  name : String
  typeParameters : List String
  fields : List StructField
  deriving BEq, Inhabited

/-- The shared value runtime over a host state. Reading a value never changes the
state; invoking one may. The last three fields are what the lanes rely on for scalars:
a text carries no capability, and integers compare as integers. -/
structure Runtime (σ : Type) where
  host : Host
  constructor : String → Option Value
  structs : String → Option StructDeclaration
  member : σ → Value → String → Except Fault Value
  invoke : Value → List Value → σ → Prim σ
  capabilityContract : σ → Value → String → String → String → String → Except Fault Unit
  matchesType : σ → Value → List String → List String → TypeBindings → Bool × TypeBindings
  runtimeTypeName : σ → Value → String
  containsCapability : σ → Value → Bool
  toText : σ → Value → Except Fault String
  equal : σ → Value → Value → Except Fault Bool
  compare : σ → CompareOp → Value → Value → Except Fault Bool
  newStruct : String → List (String × Value) → List String → σ → Value × σ
  structParts : σ → Value → Option (String × List (String × Value) × List String)
  writeField : Value → String → Value → σ → σ
  text_plain : ∀ state text, containsCapability state (.str text) = false
  equal_int : ∀ state i j, equal state (.int i) (.int j) = .ok (i == j)
  compare_int : ∀ state op i j, compare state op (.int i) (.int j) = .ok (Host.applyCompare op i j)

/-- The builtin names, `_BUILTIN_CALLS` of the facade. -/
def builtinCalls : List String :=
  ["print", "println", "Error", "bounded_queue", "queue_try_send", "queue_try_recv",
    "queue_len", "queue_capacity", "parallel_map", "decimal", "decimal_add", "decimal_sub",
    "decimal_cmp", "decimal_text", "task_scope", "task_spawn", "task_join_all",
    "task_pending", "task_capacity", "task_closed", "task_cancel", "task_cancel_all"]

/-- `builtin`: a builtin is its own name. -/
def builtin (name : String) : Option Value :=
  if builtinCalls.contains name then some (.str name) else none

/-! ## The objects of a run -/

/-- `MAX_CALL_DEPTH`, the same in every lane. -/
def maxCallDepth : Nat := 512

/-- A binding: its value and whether it may be assigned. -/
structure Cell where
  value : Value
  isMutable : Bool
  deriving BEq, Inhabited

/-- A mutable object the executor itself creates. -/
inductive Object where
  | iterator (values : List Value) (index : Nat)
  | mapBuilder (entries : List (String × Value)) (consumed : Bool)
  | structBuilder (declaration : StructDeclaration) (requiredFields : List String)
      (fields : List (String × Value)) (concreteArguments : List TypeNode) (consumed : Bool)
  deriving BEq, Inhabited

/-- What a run changes: the host state, the objects created so far and the call depth. -/
structure Store (σ : Type) where
  host : σ
  objects : List Object
  depth : Nat

/-- A computation of a run. -/
abbrev Exec (σ α : Type) := Comp Fault (Store σ) α

/-- How a run calls a function of a module. -/
abbrev Caller (σ : Type) := String → String → List Value → Exec σ Value

variable {σ α : Type}

/-- Raise a host-level result. -/
def lift (result : Except Fault α) : Exec σ α := match result with
  | .ok a => pure a
  | .error fault => raise fault

def ask (read : σ → α) : Exec σ α := fun store => .ok (read store.host) store

/-- Read the host state with a reader that may fail. -/
def askLift (read : σ → Except Fault α) : Exec σ α := fun store =>
  match read store.host with
  | .ok a => .ok a store
  | .error fault => .raise fault store

def onHost (change : σ → α × σ) : Exec σ α := fun store =>
  .ok (change store.host).1 { store with host := (change store.host).2 }

/-- Run a primitive, calling back through `call`. -/
def Prim.run (call : Caller σ) : Prim σ → Exec σ Value
  | .done (.ok value) host => fun store => .ok value { store with host := host }
  | .done (.error fault) host => fun store => .raise fault { store with host := host }
  | .call moduleKey name arguments host resume => fun store =>
    match call moduleKey name arguments { store with host := host } with
    | .ok value store' => (resume (.ok value) store'.host).run call store'
    | .raise fault store' => (resume (.error fault) store'.host).run call store'
    | .timeout => .timeout

/-- Run a primitive on the host state of the store. -/
def runPrim (call : Caller σ) (primitive : σ → Prim σ) : Exec σ Value := fun store =>
  (primitive store.host).run call store

/-- Invoke a value: a function of the program is called, anything else is a primitive. -/
def invoke (runtime : Runtime σ) (call : Caller σ) (callee : Value) (arguments : List Value) :
    Exec σ Value :=
  match callee with
  | .function moduleKey name => call moduleKey name arguments
  | callee => runPrim call (runtime.invoke callee arguments)

end Koschei
