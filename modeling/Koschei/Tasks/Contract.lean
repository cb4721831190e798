import Koschei.Tasks.Scope

/-!
# What a task scope is for

A scope is a list of children, some of them cancelled, and the result of its join
once it has been joined. A join runs every child that is not cancelled, once and
in the order of the spawns, and its result is the first failure; a fault of a
child is a failure of the child. What comes after the join changes nothing and
runs nothing.

Each lane refines this contract as long as no child that a join runs ends in a
fault. The tree interpreter refines it with such faults too; the native MIR
executor and the Go runtime end the program at the first of them.
-/

namespace Koschei.Tasks

open Lib Values

variable {Worker Argument World : Type}

/-! ## The contract -/

/-- The failure of a child. -/
def Ending.failure : Ending → Option String
  | .finished => none
  | .failed message => some message
  | .fault raised => some (raised.code ++ ": " ++ raised.message)

/-- A recorded child. -/
structure Child (Worker Argument : Type) where
  worker : Worker
  argument : Argument
  cancelled : Bool

/-- A scope, as its users see it; the result of its join is its first failure. -/
structure Contract (Worker Argument : Type) where
  capacity : Nat
  children : List (Child Worker Argument)
  joined : Option (Option String)

/-- Run children one after the other: how they end, and the world they leave. -/
def runChildren (runs : Runs Worker Argument World) :
    List (Child Worker Argument) → World → List Ending × World
  | [], world => ([], world)
  | child :: children, world =>
    let ran := runs child.worker child.argument world
    let rest := runChildren runs children ran.2
    (ran.1 :: rest.1, rest.2)

namespace Contract

/-- The children that are not cancelled, in the order of the spawns. -/
def live (scope : Contract Worker Argument) : List (Child Worker Argument) :=
  scope.children.filter fun child => !child.cancelled

/-- How the children end that a join runs. -/
def endings (runs : Runs Worker Argument World) (scope : Contract Worker Argument) (world : World) :
    List Ending :=
  (runChildren runs scope.live world).1

def serveCall (runs : Runs Worker Argument World) (scope : Contract Worker Argument)
    (world : World) : Call Worker Argument → Reply (Contract Worker Argument) World Answer Fault
  | .spawn worker argument =>
    if scope.joined.isSome then
      .answered (.error "KS3913: task scope is already closed") scope world
    else if scope.children.length < scope.capacity then
      .answered (.int scope.children.length)
        { scope with children := scope.children ++ [⟨worker, argument, false⟩] } world
    else .answered (.error "KS3912: task scope capacity is exhausted") scope world
  | .cancel task =>
    if scope.joined.isSome then
      .answered (.error "KS3913: task scope is already closed") scope world
    else
      match if task < 0 then none else scope.children[task.toNat]? with
      | none => .answered (.error "KS3916: task id is outside this scope") scope world
      | some child =>
        .answered (.bool !child.cancelled)
          { scope with children := scope.children.set task.toNat { child with cancelled := true } }
          world
  | .cancelAll =>
    if scope.joined.isSome then
      .answered (.error "KS3913: task scope is already closed") scope world
    else
      .answered (.int scope.live.length)
        { scope with
          children := scope.children.map fun child => { child with cancelled := true } } world
  | .pending => .answered (.int (if scope.joined.isSome then 0 else scope.live.length)) scope world
  | .closed => .answered (.bool scope.joined.isSome) scope world
  | .joinAll =>
    match scope.joined with
    | some firstFailure => .answered (joinAnswer firstFailure) scope world
    | none =>
      let ran := runChildren runs scope.live world
      let firstFailure := ran.1.findSome? Ending.failure
      .answered (joinAnswer firstFailure) { scope with joined := some firstFailure } ran.2

def new (Worker Argument : Type) (capacity : Nat) : Contract Worker Argument := ⟨capacity, [], none⟩

end Contract

/-- No child that a call runs ends in a fault. -/
def NoFault (runs : Runs Worker Argument World) (scope : Contract Worker Argument) (world : World)
    (call : Call Worker Argument) : Prop :=
  call = .joinAll → scope.joined = none →
    ∀ ending ∈ scope.endings runs world, ∀ raised, ending ≠ .fault raised

/-! ## The storage keeps the contract -/

def TaskRecord.child (record : TaskRecord Worker Argument) : Child Worker Argument :=
  ⟨record.worker, record.argument, record.state = .cancelled⟩

/-- A table and the contract of its scope. Before the join its records are pending or cancelled,
and after it all of them have ended. -/
structure Table.Keeps (table : Table Worker Argument) (scope : Contract Worker Argument) : Prop where
  capacity : table.capacity = scope.capacity
  closed : table.closed = scope.joined.isSome
  waiting : scope.joined = none → table.slots.map TaskRecord.child = scope.children ∧
    (∀ record ∈ table.slots, record.state = .pending ∨ record.state = .cancelled) ∧
    table.terminal + scope.live.length = table.slots.length
  ended : scope.joined ≠ none → table.terminal = table.slots.length

/-- A call on the table, and what the contract says of it: the same refusal, or the same answer and
a table that keeps the contract. -/
inductive Follows {α : Type} (answer : α → Answer) (scope : Contract Worker Argument)
    (world : World) :
    Except String (α × Table Worker Argument) →
      Reply (Contract Worker Argument) World Answer Fault → Prop where
  | refused (message : String) :
      Follows answer scope world (.error message) (.answered (.error message) scope world)
  | answered (given : α) {table : Table Worker Argument} {later : Contract Worker Argument}
      (keeps : table.Keeps later) (joined : later.joined = scope.joined) :
      Follows answer scope world (.ok (given, table)) (.answered (answer given) later world)

section Calls

variable {table : Table Worker Argument} {scope : Contract Worker Argument}

section

variable (keeps : table.Keeps scope)
  (waiting : scope.joined = none)

include keeps waiting

theorem Table.Keeps.count : table.slots.length = scope.children.length := by
  rw [← (keeps.waiting waiting).1, length_map]

theorem Table.Keeps.slot (task : Nat) :
    scope.children[task]? = table.slots[task]?.map TaskRecord.child := by
  rw [← (keeps.waiting waiting).1, List.getElem?_map]

theorem Table.Keeps.not_closed : table.closed = false := by
  rw [keeps.closed, waiting]
  rfl

end

variable {children : List (Child Worker Argument)}

theorem Table.keeps_waiting {capacity terminal : Nat}
    {slots : List (TaskRecord Worker Argument)} (same : slots.map TaskRecord.child = children)
    (states : ∀ record ∈ slots, record.state = .pending ∨ record.state = .cancelled)
    (counted : terminal + (children.filter fun child => !child.cancelled).length = slots.length) :
    Table.Keeps ⟨capacity, slots, terminal, false⟩ ⟨capacity, children, none⟩ :=
  ⟨rfl, rfl, fun _ => ⟨same, states, counted⟩, fun joined => absurd rfl joined⟩

theorem spawn_follows (runs : Runs Worker Argument World) (keeps : table.Keeps scope)
    (world : World) (worker : Worker) (argument : Argument) :
    Follows Answer.int scope world (table.spawn worker argument)
      (scope.serveCall runs world (.spawn worker argument)) := by
  obtain ⟨capacity, children, joined⟩ := scope
  cases joined with
  | some firstFailure =>
    have closed : table.closed = true := keeps.closed
    simp only [Table.spawn, closed, if_true, Contract.serveCall, isSome_some]
    exact .refused _
  | none =>
    have closed := keeps.not_closed rfl
    have count := keeps.count rfl
    obtain ⟨same, states, counted⟩ := keeps.waiting rfl
    simp only [Table.spawn, closed, false_eq_true, if_false, Contract.serveCall,
      isSome_none, keeps.capacity, count]
    by_cases room : children.length < capacity
    · rw [if_neg (Nat.not_le_of_lt room), if_pos room]
      refine .answered _ ?_ rfl
      obtain ⟨tableCapacity, slots, terminal, tableClosed⟩ := table
      cases closed
      cases keeps.capacity
      refine Table.keeps_waiting ?_ (fun record member => ?_) ?_
      · rw [map_append, same]
        rfl
      · rcases mem_append.mp member with old | new
        · exact states record old
        · rw [mem_singleton.mp new]
          exact .inl rfl
      · simp only [filter_append, length_append, filter_cons, List.filter_nil,
          Bool.not_false, if_true, length_cons, length_nil]
        have counted : terminal + (children.filter fun child => !child.cancelled).length =
          slots.length := counted
        omega
    · rw [if_pos (Nat.le_of_not_lt room), if_neg room]
      exact .refused _

theorem filter_set_cancelled {task : Nat}
    {child : Child Worker Argument} (found : children[task]? = some child)
    (uncancelled : child.cancelled = false) :
    ((children.set task { child with cancelled := true }).filter
        fun child => !child.cancelled).length + 1 =
      (children.filter fun child => !child.cancelled).length := by
  obtain ⟨small, here⟩ := List.getElem?_eq_some_iff.mp found
  rw [← List.countP_eq_length_filter, ← List.countP_eq_length_filter, List.countP_set small, here,
    uncancelled]
  have some_ : 0 < children.countP fun child => !child.cancelled :=
    List.countP_pos_iff.mpr ⟨child, mem_of_getElem? found, by rw [uncancelled]; rfl⟩
  simp only [Bool.not_false, if_true, Bool.not_true, false_eq_true, if_false]
  omega

theorem cancel_follows (runs : Runs Worker Argument World) (keeps : table.Keeps scope)
    (world : World) (task : Int) :
    Follows Answer.bool scope world (table.cancel task)
      (scope.serveCall runs world (.cancel task)) := by
  obtain ⟨capacity, children, joined⟩ := scope
  cases joined with
  | some firstFailure =>
    have closed : table.closed = true := keeps.closed
    simp only [Table.cancel, closed, if_true, Contract.serveCall, isSome_some]
    exact .refused _
  | none =>
    have closed := keeps.not_closed rfl
    have slot : children[task.toNat]? = table.slots[task.toNat]?.map TaskRecord.child :=
      keeps.slot rfl task.toNat
    obtain ⟨same, states, counted⟩ := keeps.waiting rfl
    simp only [Table.cancel, closed, false_eq_true, if_false, Contract.serveCall, isSome_none, slot]
    by_cases negative : task < 0
    · simp only [negative, if_true]
      exact .refused _
    · simp only [negative, if_false]
      cases found : table.slots[task.toNat]? with
      | none => exact .refused _
      | some record =>
        have child := slot
        rw [found, map_some] at child
        obtain ⟨tableCapacity, slots, terminal, tableClosed⟩ := table
        cases closed
        cases keeps.capacity
        simp only [map_some]
        rcases states record (mem_of_getElem? found) with pending | cancelled
        · have uncancelled : record.child.cancelled = false := by
            simp only [TaskRecord.child, pending, reduceCtorEq, decide_false]
          simp only [pending, reduceCtorEq, if_false, ne_eq, not_true_eq_false, uncancelled,
            Bool.not_false]
          refine .answered true (Table.keeps_waiting ?_ (fun other member => ?_) ?_) rfl
          · rw [List.map_set, same]
            rfl
          · rcases List.mem_or_eq_of_mem_set member with old | rfl
            · exact states other old
            · exact .inr rfl
          · have fewer := filter_set_cancelled child uncancelled
            have counted : terminal + (children.filter fun child => !child.cancelled).length =
              slots.length := counted
            rw [List.length_set]
            omega
        · have marked : record.child.cancelled = true := by
            simp only [TaskRecord.child, cancelled, decide_true]
          have unchanged : children.set task.toNat { record.child with cancelled := true } =
              children := by
            obtain ⟨small, here⟩ := List.getElem?_eq_some_iff.mp child
            rw [← marked]
            exact here ▸ List.set_getElem_self small
          simp only [cancelled, if_true, marked, Bool.not_true, unchanged]
          exact .answered false keeps rfl

/-- What the loop of `cancel_all` does to records that are pending or cancelled. -/
theorem cancelPending_spec (slots : List (TaskRecord Worker Argument))
    (states : ∀ record ∈ slots, record.state = .pending ∨ record.state = .cancelled) :
    (Table.cancelPending slots).1.map TaskRecord.child =
        (slots.map TaskRecord.child).map (fun child => { child with cancelled := true }) ∧
      (∀ record ∈ (Table.cancelPending slots).1, record.state = .cancelled) ∧
      (Table.cancelPending slots).2 =
        ((slots.map TaskRecord.child).filter fun child => !child.cancelled).length := by
  induction slots with
  | nil => exact ⟨rfl, forall_mem_nil _, rfl⟩
  | cons record slots ih =>
    obtain ⟨first, rest⟩ := forall_mem_cons.mp states
    obtain ⟨children, cancelled, counted⟩ := ih rest
    rcases first with pending | already
    · simp only [Table.cancelPending, pending, if_true, map_cons, children, counted,
        filter_cons, TaskRecord.child, reduceCtorEq, decide_false, Bool.not_false,
        decide_true, length_cons, forall_mem_cons, true_and, and_true]
      exact cancelled
    · simp only [Table.cancelPending, already, reduceCtorEq, if_false, map_cons, children,
        counted, filter_cons, TaskRecord.child, decide_true, Bool.not_true,
        false_eq_true, forall_mem_cons, true_and, and_true]
      exact cancelled

theorem cancelAll_follows (runs : Runs Worker Argument World) (keeps : table.Keeps scope)
    (world : World) :
    Follows Answer.int scope world table.cancelAll (scope.serveCall runs world .cancelAll) := by
  obtain ⟨capacity, children, joined⟩ := scope
  cases joined with
  | some firstFailure =>
    have closed : table.closed = true := keeps.closed
    simp only [Table.cancelAll, closed, if_true, Contract.serveCall, isSome_some]
    exact .refused _
  | none =>
    have closed := keeps.not_closed rfl
    obtain ⟨same, states, counted⟩ := keeps.waiting rfl
    obtain ⟨marked, cancelled, number⟩ := cancelPending_spec table.slots states
    obtain ⟨tableCapacity, slots, terminal, tableClosed⟩ := table
    cases closed
    cases keeps.capacity
    have same : slots.map TaskRecord.child = children := same
    have counted : terminal + (children.filter fun child => !child.cancelled).length =
      slots.length := counted
    simp only [Table.cancelAll, false_eq_true, if_false, Contract.serveCall, isSome_none]
    rw [same] at number marked
    rw [show (Contract.live ⟨capacity, children, none⟩).length =
      (Table.cancelPending slots).2 from number.symm]
    refine .answered _ (Table.keeps_waiting marked (fun record member => ?_) ?_) rfl
    · exact .inr (cancelled record member)
    · have none_left : ((children.map fun child => { child with cancelled := true }).filter
          fun child => !child.cancelled) = [] := by
        refine filter_eq_nil_iff.mpr fun child member => ?_
        obtain ⟨original, -, rfl⟩ := mem_map.mp member
        exact false_ne_true
      have length := congrArg List.length marked
      rw [length_map, length_map, ← same, length_map] at length
      rw [none_left, length, number]
      exact counted

/-! ## Joining -/

/-- The children of the records that are not cancelled. -/
def liveChildren (slots : List (TaskRecord Worker Argument)) : List (Child Worker Argument) :=
  (slots.map TaskRecord.child).filter fun child => !child.cancelled

variable {record : TaskRecord Worker Argument}

theorem liveChildren_skip (cancelled : record.state = .cancelled)
    (slots : List (TaskRecord Worker Argument)) :
    liveChildren (record :: slots) = liveChildren slots := by
  simp only [liveChildren, map_cons, filter_cons, TaskRecord.child, cancelled, decide_true,
    Bool.not_true, false_eq_true, if_false]

theorem liveChildren_keep
    (live : record.state ≠ .cancelled) (slots : List (TaskRecord Worker Argument)) :
    liveChildren (record :: slots) = record.child :: liveChildren slots := by
  simp only [liveChildren, map_cons, filter_cons, TaskRecord.child, live, decide_false,
    Bool.not_false, if_true]

theorem joinRecords_eq (runs : Runs Worker Argument World) (caught : Fault → Option String)
    (slots : List (TaskRecord Worker Argument)) (terminal : Nat) (firstFailure : Option String)
    (world : World) (settles : ∀ ending ∈ (runChildren runs (liveChildren slots) world).1,
      ending.settle caught = .ok ending.failure) :
    ∃ ended : List (TaskRecord Worker Argument), ended.length = slots.length ∧
      joinRecords runs caught slots terminal firstFailure world = .ok ⟨ended,
        terminal + (liveChildren slots).length,
        firstFailure.or ((runChildren runs (liveChildren slots) world).1.findSome? Ending.failure),
        (runChildren runs (liveChildren slots) world).2⟩ := by
  induction slots generalizing terminal firstFailure world with
  | nil => exact ⟨[], rfl, by rw [joinRecords]; exact congrArg _ (congrArg (Joined.mk _ _ · _)
      (Option.or_none).symm)⟩
  | cons record slots ih =>
    by_cases cancelled : record.state = .cancelled
    · rw [liveChildren_skip cancelled] at settles ⊢
      obtain ⟨ended, length, joined⟩ := ih terminal firstFailure world settles
      refine ⟨record :: ended, congrArg (· + 1) length, ?_⟩
      rw [joinRecords, if_pos cancelled, joined]
    · rw [liveChildren_keep cancelled, runChildren] at settles ⊢
      obtain ⟨first, rest⟩ := forall_mem_cons.mp settles
      obtain ⟨ended, length, joined⟩ := ih (terminal + 1)
        (firstFailure.or (runs record.worker record.argument world).1.failure) _ rest
      refine ⟨record.markTerminal (runs record.worker record.argument world).1.failure :: ended,
        congrArg (· + 1) length, ?_⟩
      have settled : (runs record.worker record.argument world).1.settle caught =
        .ok (runs record.worker record.argument world).1.failure := first
      have joined : joinRecords runs caught slots (terminal + 1)
        (firstFailure.or (runs record.worker record.argument world).1.failure)
        (runs record.worker record.argument world).2 = _ := joined
      rw [joinRecords, if_neg cancelled]
      simp only [settled, joined, TaskRecord.child, length_cons, List.findSome?_cons,
        Option.or_assoc, Nat.add_assoc, Nat.add_comm 1]
      cases (runs record.worker record.argument world).1.failure <;> rfl

theorem joinRecords_stops (runs : Runs Worker Argument World)
    (slots : List (TaskRecord Worker Argument)) (terminal : Nat) (firstFailure : Option String)
    (world : World) {raised : Fault}
    (member : .fault raised ∈ (runChildren runs (liveChildren slots) world).1) :
    ∃ fault after, joinRecords runs (fun _ => none) slots terminal firstFailure world =
      .error (fault, after) := by
  induction slots generalizing terminal firstFailure world with
  | nil => cases member
  | cons record slots ih =>
    rw [joinRecords]
    by_cases cancelled : record.state = .cancelled
    · rw [liveChildren_skip cancelled] at member
      obtain ⟨fault, after, stopped⟩ := ih terminal firstFailure world member
      rw [if_pos cancelled, stopped]
      exact ⟨fault, after, rfl⟩
    · rw [liveChildren_keep cancelled, runChildren] at member
      rw [if_neg cancelled]
      cases settled : (runs record.worker record.argument world).1.settle fun _ => none with
      | error fault =>
        simp only [settled]
        exact ⟨fault, _, rfl⟩
      | ok failure =>
        rcases mem_cons.mp member with here | later
        · have ends : (runs record.worker record.argument world).1 = .fault raised := here.symm
          rw [ends] at settled
          cases settled
        · obtain ⟨fault, after, stopped⟩ := ih (terminal + 1) (firstFailure.or failure) _ later
          have stopped : joinRecords runs (fun _ => none) slots (terminal + 1)
            (firstFailure.or failure) (runs record.worker record.argument world).2 =
              .error (fault, after) := stopped
          simp only [settled, stopped]
          exact ⟨fault, after, rfl⟩

end Calls

end Koschei.Tasks
