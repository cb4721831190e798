import Koschei.Lib.Serving
import Koschei.Values.Builtins

/-!
# Structured task scopes in the three lanes

A task scope records children and runs those that were not cancelled when it is
joined. The tree interpreter and the native MIR executor share the storage,
`TaskScopeValue`; the Go runtime has a `KsTaskScope` of its own. The lanes differ
in the order in which a spawn is checked, and in what becomes of a fault inside a
child: the tree interpreter turns it into a failure of the child, the other two
end the program with it.

Workers, arguments and the world the children work on are parameters, and so is
how a child ends. The workers are those the type checker admits: named, unary and
without a result. A child holds no scope, so that it does not change the scope it
runs in.
-/

namespace Koschei.Tasks

open Lib Values

variable {Worker Argument World : Type}

/-! ## Children, calls and answers -/

/-- How a child ends: with a value, with an Error value, or with a run-time fault. -/
inductive Ending where
  | finished
  | failed (message : String)
  | fault (fault : Fault)
  deriving DecidableEq

/-- What a call of a task builtin returns. -/
inductive Answer where
  | unit
  | bool (b : Bool)
  | int (i : Nat)
  | error (message : String)
  deriving DecidableEq

/-- A call of a task builtin on the one scope. -/
inductive Call (Worker Argument : Type) where
  | spawn (worker : Worker) (argument : Argument)
  | cancel (task : Int)
  | cancelAll
  | pending
  | closed
  | joinAll

/-- What the lanes ask of the argument of a child. -/
structure Checks (Argument : Type) where
  containsCapability : Argument → Bool
  containsTaskScope : Argument → Bool
  isTaskScope : Argument → Bool
  shareSafe : Argument → Bool

/-- What the type checker lets through as an argument: a scalar or a bounded queue of scalars. -/
structure Checks.Admits (checks : Checks Argument) (argument : Argument) : Prop where
  noCapability : checks.containsCapability argument = false
  noTaskScope : checks.containsTaskScope argument = false
  notTaskScope : checks.isTaskScope argument = false
  shareSafe : checks.shareSafe argument = true

/-- How a child runs: what its worker does with its argument in a world. -/
abbrev Runs (Worker Argument World : Type) := Worker → Argument → World → Ending × World

/-! ## The storage of a scope -/

/-- `TaskRecord`, and `ksTaskSlot`. -/
structure TaskRecord (Worker Argument : Type) where
  worker : Worker
  argument : Argument
  state : TaskState
  failure : Option String

/-- What `TaskScopeValue` and `KsTaskScope` have in common. The slots are the occupied ones, so
that their number is the count. -/
structure Table (Worker Argument : Type) where
  capacity : Nat
  slots : List (TaskRecord Worker Argument)
  terminal : Nat
  closed : Bool

namespace Table

variable (table : Table Worker Argument)

/-- The spawned children that have not come to an end. -/
def pending : Nat := table.slots.length - table.terminal

/-- A new child in the next slot. -/
def push (worker : Worker) (argument : Argument) : Table Worker Argument :=
  { table with slots := table.slots ++ [⟨worker, argument, .pending, none⟩] }

/-- `spawn` of `TaskScopeValue`. -/
def spawn (worker : Worker) (argument : Argument) : Except String (Nat × Table Worker Argument) :=
  if table.closed then .error "KS3913: task scope is already closed"
  else if table.slots.length ≥ table.capacity then
    .error "KS3912: task scope capacity is exhausted"
  else .ok (table.slots.length, table.push worker argument)

/-- `cancel`, and `ksTaskCancel`. -/
def cancel (task : Int) : Except String (Bool × Table Worker Argument) :=
  if table.closed then .error "KS3913: task scope is already closed"
  else if task < 0 then .error "KS3916: task id is outside this scope"
  else
    match table.slots[task.toNat]? with
    | none => .error "KS3916: task id is outside this scope"
    | some record =>
      if record.state = .cancelled then .ok (false, table)
      else if record.state ≠ .pending then .ok (false, table)
      else .ok (true, { table with
        slots := table.slots.set task.toNat { record with state := .cancelled }
        terminal := table.terminal + 1 })

/-- The loop of `cancel_all`: the records, and how many of them it cancels. -/
def cancelPending : List (TaskRecord Worker Argument) → List (TaskRecord Worker Argument) × Nat
  | [] => ([], 0)
  | record :: records =>
    let rest := cancelPending records
    if record.state = .pending then ({ record with state := .cancelled } :: rest.1, rest.2 + 1)
    else (record :: rest.1, rest.2)

/-- `cancel_all`, and `ksTaskCancelAll`. -/
def cancelAll : Except String (Nat × Table Worker Argument) :=
  if table.closed then .error "KS3913: task scope is already closed"
  else
    let cancelled := cancelPending table.slots
    .ok (cancelled.2, { table with
      slots := cancelled.1
      terminal := table.terminal + cancelled.2 })

end Table

/-! ## Joining -/

/-- `mark_terminal`. -/
def TaskRecord.markTerminal (record : TaskRecord Worker Argument) (failure : Option String) :
    TaskRecord Worker Argument :=
  { record with
    failure := failure
    state := if failure.isSome then .failed else .done }

/-- The failure of a child, given which faults of a child are caught. -/
def Ending.settle (caught : Fault → Option String) : Ending → Except Fault (Option String)
  | .finished => .ok none
  | .failed message => .ok (some message)
  | .fault raised =>
    match caught raised with
    | some message => .ok (some message)
    | none => .error raised

/-- What a join has come to: the records it has gone through, the ended children, the first
failure and the world. -/
structure Joined (Worker Argument World : Type) where
  slots : List (TaskRecord Worker Argument)
  terminal : Nat
  firstFailure : Option String
  world : World

/-- The loop of a join over the records, in spawn order. A fault that is not caught ends it. -/
def joinRecords (runs : Runs Worker Argument World) (caught : Fault → Option String) :
    List (TaskRecord Worker Argument) → Nat → Option String → World →
      Except (Fault × World) (Joined Worker Argument World)
  | [], terminal, firstFailure, world => .ok ⟨[], terminal, firstFailure, world⟩
  | record :: records, terminal, firstFailure, world =>
    if record.state = .cancelled then
      match joinRecords runs caught records terminal firstFailure world with
      | .ok joined => .ok { joined with slots := record :: joined.slots }
      | .error stopped => .error stopped
    else
      let ran := runs record.worker record.argument world
      match ran.1.settle caught with
      | .error fault => .error (fault, ran.2)
      | .ok failure =>
        match joinRecords runs caught records (terminal + 1) (firstFailure.or failure) ran.2 with
        | .ok joined => .ok { joined with slots := record.markTerminal failure :: joined.slots }
        | .error stopped => .error stopped

/-- The result of a join: the first failure, or unit. -/
def joinAnswer : Option String → Answer
  | some message => .error message
  | none => .unit

/-- An answer, or the text of a refusal. -/
def answerOf {α State : Type} (answer : α → Answer) (state : State) (world : World) :
    Except String (α × State) → Reply State World Answer Fault
  | .ok (given, state) => .answered (answer given) state world
  | .error message => .answered (.error message) state world

/-! ## The tree interpreter and the native MIR executor -/

/-- `TaskScopeValue`. -/
structure TaskScopeValue (Worker Argument : Type) where
  table : Table Worker Argument
  joinResult : Option Answer

def TaskScopeValue.onTable {α : Type} (scope : TaskScopeValue Worker Argument) :
    Except String (α × Table Worker Argument) → Except String (α × TaskScopeValue Worker Argument)
  | .ok (given, table) => .ok (given, { scope with table := table })
  | .error message => .error message

/-- `task_spawn` of the tree interpreter, with the check of share-safety before it. -/
def treeSpawn (checks : Checks Argument) (scope : TaskScopeValue Worker Argument)
    (worker : Worker) (argument : Argument) :
    Except String (Nat × TaskScopeValue Worker Argument) :=
  if !checks.containsCapability argument && !checks.shareSafe argument then
    .error "KS3917: task argument is not share-safe in structured task v1"
  else if checks.containsCapability argument then
    .error "KS3914: task arguments cannot carry capabilities in v1"
  else if checks.containsTaskScope argument then
    .error "KS3914: task arguments cannot carry TaskScope control handles"
  else scope.onTable (scope.table.spawn worker argument)

/-- `task_spawn` of the native MIR executor: only an argument that is itself a scope is looked
for. -/
def mirSpawn (checks : Checks Argument) (scope : TaskScopeValue Worker Argument)
    (worker : Worker) (argument : Argument) :
    Except String (Nat × TaskScopeValue Worker Argument) :=
  if !checks.containsCapability argument && !checks.shareSafe argument then
    .error "KS3917: task argument is not share-safe in structured task v1"
  else if checks.containsCapability argument then
    .error "KS3914: task arguments cannot carry capabilities in v1"
  else if checks.isTaskScope argument then
    .error "KS3914: task arguments cannot carry TaskScope control handles"
  else scope.onTable (scope.table.spawn worker argument)

/-- `task_join_all`, given which faults of a child are caught. -/
def TaskScopeValue.joinAll (runs : Runs Worker Argument World) (caught : Fault → Option String)
    (scope : TaskScopeValue Worker Argument) (world : World) :
    Reply (TaskScopeValue Worker Argument) World Answer Fault :=
  match scope.joinResult with
  | some result => .answered result scope world
  | none =>
    match joinRecords runs caught scope.table.slots scope.table.terminal none world with
    | .error (fault, world) => .stopped fault world
    | .ok joined =>
      .answered (joinAnswer joined.firstFailure)
        ⟨{ scope.table with slots := joined.slots, terminal := joined.terminal, closed := true },
          some (joinAnswer joined.firstFailure)⟩ joined.world

/-- The task builtins on a `TaskScopeValue`, given `task_spawn` and which faults of a child
`task_join_all` catches. -/
def TaskScopeValue.invoke (runs : Runs Worker Argument World)
    (spawn : TaskScopeValue Worker Argument → Worker → Argument →
      Except String (Nat × TaskScopeValue Worker Argument))
    (caught : Fault → Option String) (scope : TaskScopeValue Worker Argument) (world : World) :
    Call Worker Argument → Reply (TaskScopeValue Worker Argument) World Answer Fault
  | .spawn worker argument => answerOf Answer.int scope world (spawn scope worker argument)
  | .cancel task => answerOf Answer.bool scope world (scope.onTable (scope.table.cancel task))
  | .cancelAll => answerOf Answer.int scope world (scope.onTable scope.table.cancelAll)
  | .pending => .answered (.int scope.table.pending) scope world
  | .closed => .answered (.bool scope.table.closed) scope world
  | .joinAll => scope.joinAll runs caught world

/-- `except KoscheiRuntimeError`: the failure of a child that ended in a fault. -/
def caughtByTree (fault : Fault) : Option String :=
  if isKoscheiFault fault then some (fault.code ++ ": " ++ fault.message) else none

/-- `_tree_invoke`. -/
def treeInvoke (checks : Checks Argument) (runs : Runs Worker Argument World) :
    TaskScopeValue Worker Argument → World → Call Worker Argument →
      Reply (TaskScopeValue Worker Argument) World Answer Fault :=
  TaskScopeValue.invoke runs (treeSpawn checks) caughtByTree

/-- `_mir_invoke`: no fault of a child is caught. -/
def mirInvoke (checks : Checks Argument) (runs : Runs Worker Argument World) :
    TaskScopeValue Worker Argument → World → Call Worker Argument →
      Reply (TaskScopeValue Worker Argument) World Answer Fault :=
  TaskScopeValue.invoke runs (mirSpawn checks) fun _ => none

/-! ## The Go runtime -/

/-- `KsTaskScope`. -/
structure KsTaskScope (Worker Argument : Type) where
  table : Table Worker Argument
  joined : Bool
  joinResult : Answer

/-- `ksTaskSpawn`, with the check of share-safety after the others. -/
def ksTaskSpawn (checks : Checks Argument) (scope : KsTaskScope Worker Argument)
    (worker : Worker) (argument : Argument) : Except String (Nat × KsTaskScope Worker Argument) :=
  if scope.table.closed then .error "KS3913: task scope is already closed"
  else if scope.table.slots.length ≥ scope.table.capacity then
    .error "KS3912: task scope capacity is exhausted"
  else if checks.containsCapability argument then
    .error "KS3914: task arguments cannot carry capabilities in v1"
  else if checks.containsTaskScope argument then
    .error "KS3914: task arguments cannot carry TaskScope control handles"
  else if !checks.shareSafe argument then
    .error "KS3917: task argument is not share-safe in structured task v1"
  else .ok (scope.table.slots.length, { scope with table := scope.table.push worker argument })

def KsTaskScope.onTable {α : Type} (scope : KsTaskScope Worker Argument) :
    Except String (α × Table Worker Argument) → Except String (α × KsTaskScope Worker Argument)
  | .ok (given, table) => .ok (given, { scope with table := table })
  | .error message => .error message

/-- `ksTaskJoinAll`. A fault of a child is `ksFatal`, which ends the program. -/
def ksTaskJoinAll (runs : Runs Worker Argument World) (scope : KsTaskScope Worker Argument)
    (world : World) : Reply (KsTaskScope Worker Argument) World Answer Fault :=
  if scope.joined then .answered scope.joinResult scope world
  else
    match joinRecords runs (fun _ => none) scope.table.slots scope.table.terminal none world with
    | .error (fault, world) => .stopped fault world
    | .ok joined =>
      .answered (joinAnswer joined.firstFailure)
        ⟨{ scope.table with slots := joined.slots, terminal := joined.terminal, closed := true },
          true, joinAnswer joined.firstFailure⟩ joined.world

/-- The task helpers of the Go runtime. -/
def goInvoke (checks : Checks Argument) (runs : Runs Worker Argument World)
    (scope : KsTaskScope Worker Argument) (world : World) :
    Call Worker Argument → Reply (KsTaskScope Worker Argument) World Answer Fault
  | .spawn worker argument =>
    answerOf Answer.int scope world (ksTaskSpawn checks scope worker argument)
  | .cancel task => answerOf Answer.bool scope world (scope.onTable (scope.table.cancel task))
  | .cancelAll => answerOf Answer.int scope world (scope.onTable scope.table.cancelAll)
  | .pending => .answered (.int scope.table.pending) scope world
  | .closed => .answered (.bool scope.table.closed) scope world
  | .joinAll => ksTaskJoinAll runs scope world

/-! ## New scopes -/

def newTable (Worker Argument : Type) (capacity : Nat) : Table Worker Argument :=
  ⟨capacity, [], 0, false⟩

/-- `task_scope` of the two Python lanes. -/
def TaskScopeValue.new (Worker Argument : Type) (capacity : Int) :
    Except String (TaskScopeValue Worker Argument) :=
  if 1 ≤ capacity ∧ capacity ≤ (maxTaskCapacity : Int) then
    .ok ⟨newTable Worker Argument capacity.toNat, none⟩
  else .error "KS3911: task scope capacity must be between 1 and 4096"

/-- `ksTaskScope`. `JoinResult` is `nil` until the join. -/
def ksTaskScope (Worker Argument : Type) (capacity : Int) :
    Except String (KsTaskScope Worker Argument) :=
  if capacity < 1 ∨ capacity > (maxTaskCapacity : Int) then
    .error "KS3911: task scope capacity must be between 1 and 4096"
  else .ok ⟨newTable Worker Argument capacity.toNat, false, .unit⟩

end Koschei.Tasks
