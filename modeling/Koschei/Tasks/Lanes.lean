import Koschei.Tasks.Contract

/-!
# The lanes of a task scope and their contract

Every lane refines the contract of task scopes as long as no child that a join
runs ends in a fault, and this is exactly when the three lanes agree: at such a
fault the tree interpreter goes on with the next child, and the native MIR
executor and the Go runtime stop.
-/

namespace Koschei.Tasks

open Lib Values

variable {Worker Argument World : Type}

/-- A `TaskScopeValue` that keeps the contract. -/
structure TaskScopeValue.Keeps (scope : TaskScopeValue Worker Argument)
    (contract : Contract Worker Argument) : Prop where
  table : scope.table.Keeps contract
  result : scope.joinResult = contract.joined.map joinAnswer

/-- A `KsTaskScope` that keeps the contract. -/
structure KsTaskScope.Keeps (scope : KsTaskScope Worker Argument)
    (contract : Contract Worker Argument) : Prop where
  table : scope.table.Keeps contract
  joined : scope.joined = contract.joined.isSome
  result : ∀ firstFailure, contract.joined = some firstFailure →
    scope.joinResult = joinAnswer firstFailure

/-- Every child that a call runs settles as the contract says. -/
def Settles (runs : Runs Worker Argument World) (caught : Fault → Option String)
    (contract : Contract Worker Argument) (world : World) (call : Call Worker Argument) : Prop :=
  call = .joinAll → contract.joined = none →
    ∀ ending ∈ contract.endings runs world, ending.settle caught = .ok ending.failure

/-- The argument of a spawn is one that the type checker lets through. -/
def Admitted (checks : Checks Argument) (call : Call Worker Argument) : Prop :=
  ∀ worker argument, call = .spawn worker argument → checks.Admits argument

variable {world : World} {call : Call Worker Argument}

theorem NoFault.settles {runs : Runs Worker Argument World} {contract : Contract Worker Argument}
    (calm : NoFault runs contract world call)
    (caught : Fault → Option String) : Settles runs caught contract world call := by
  intro joins waiting ending member
  have unraised := calm joins waiting ending member
  cases ending with
  | finished => rfl
  | failed message => rfl
  | fault raised => exact absurd rfl (unraised raised)

/-! ## What the lanes share -/

section Shared

variable {table : Table Worker Argument} {contract : Contract Worker Argument}

section

variable (keeps : table.Keeps contract)

include keeps

theorem pending_eq :
    table.pending = if contract.joined.isSome then 0 else contract.live.length := by
  unfold Table.pending
  cases joined : contract.joined with
  | none =>
    have counted := (keeps.waiting joined).2.2
    simp only [isSome_none, false_eq_true, if_false]
    omega
  | some firstFailure =>
    have ended := keeps.ended (by rw [joined]; nofun)
    simp only [isSome_some, if_true]
    omega

theorem live_eq (waiting : contract.joined = none) : liveChildren table.slots = contract.live := by
  unfold liveChildren Contract.live
  rw [(keeps.waiting waiting).1]

theorem keeps_joined (waiting : contract.joined = none)
    {ended : List (TaskRecord Worker Argument)} (length : ended.length = table.slots.length)
    (firstFailure : Option String) :
    Table.Keeps { table with
        slots := ended, terminal := table.terminal + contract.live.length, closed := true }
      { contract with joined := some firstFailure } := by
  refine ⟨keeps.capacity, rfl, ?_, fun _ => ?_⟩
  · rintro ⟨⟩
  · exact (keeps.waiting waiting).2.2.trans length.symm

variable {runs : Runs Worker Argument World}

theorem join_follows {caught : Fault → Option String} (waiting : contract.joined = none)
    (settles : Settles runs caught contract world .joinAll) :
    ∃ ended : List (TaskRecord Worker Argument), ended.length = table.slots.length ∧
      joinRecords runs caught table.slots table.terminal none world = .ok ⟨ended,
        table.terminal + contract.live.length,
        (contract.endings runs world).findSome? Ending.failure,
        (runChildren runs contract.live world).2⟩ := by
  have joined := joinRecords_eq runs caught table.slots table.terminal none world
  rw [live_eq keeps waiting] at joined
  exact joined (settles rfl waiting)

theorem join_stops (raises : ¬ NoFault runs contract world call) :
    call = .joinAll ∧ contract.joined = none ∧
      ∃ fault after, joinRecords runs (fun _ => none) table.slots table.terminal none world =
        .error (fault, after) := by
  simp only [NoFault, Classical.not_imp, not_forall, not_not] at raises
  obtain ⟨joins, waiting, ending, member, raised, rfl⟩ := raises
  rw [Contract.endings, ← live_eq keeps waiting] at member
  exact ⟨joins, waiting, joinRecords_stops runs table.slots table.terminal none world member⟩

end

theorem serveCall_join (runs : Runs Worker Argument World) (world : World)
    (waiting : contract.joined = none) :
    contract.serveCall runs world .joinAll =
      .answered (joinAnswer ((contract.endings runs world).findSome? Ending.failure))
        { contract with joined := some ((contract.endings runs world).findSome? Ending.failure) }
        (runChildren runs contract.live world).2 := by
  unfold Contract.serveCall
  simp only [waiting]
  rfl

theorem serveCall_join_again (runs : Runs Worker Argument World) (world : World)
    {firstFailure : Option String} (joined : contract.joined = some firstFailure) :
    contract.serveCall runs world .joinAll =
      .answered (joinAnswer firstFailure) contract world := by
  unfold Contract.serveCall
  simp only [joined]

end Shared

/-! ## The lanes of the interpreters -/

section Values

variable {scope : TaskScopeValue Worker Argument} {contract : Contract Worker Argument}
  {world : World}

/-- A call on the table of a `TaskScopeValue`. -/
theorem onTable_agrees {α : Type} {answer : α → Answer} (keeps : scope.Keeps contract)
    {result : Except String (α × Table Worker Argument)}
    {reply : Reply (Contract Worker Argument) World Answer Fault}
    (follows : Follows answer contract world result reply) :
    (answerOf answer scope world (scope.onTable result)).Agrees TaskScopeValue.Keeps reply := by
  cases follows with
  | refused message => exact .answered keeps
  | answered given tableKeeps joined =>
    exact .answered ⟨tableKeeps, by rw [joined]; exact keeps.result⟩

variable {runs : Runs Worker Argument World} {caught : Fault → Option String}

theorem joinAll_agrees (keeps : scope.Keeps contract)
    (settles : Settles runs caught contract world .joinAll) :
    (scope.joinAll runs caught world).Agrees TaskScopeValue.Keeps
      (contract.serveCall runs world .joinAll) := by
  unfold TaskScopeValue.joinAll
  rw [keeps.result]
  cases joined : contract.joined with
  | some firstFailure =>
    rw [serveCall_join_again runs world joined]
    exact .answered keeps
  | none =>
    obtain ⟨ended, length, loop⟩ := join_follows keeps.table joined settles
    rw [serveCall_join runs world joined]
    simp only [map_none, loop]
    exact .answered ⟨keeps_joined keeps.table joined length _, rfl⟩

variable {checks : Checks Argument} {call : Call Worker Argument}

theorem invoke_agrees {spawn : TaskScopeValue Worker Argument → Worker → Argument →
    Except String (Nat × TaskScopeValue Worker Argument)}
    (spawns : ∀ scope worker argument, checks.Admits argument →
      spawn scope worker argument = scope.onTable (scope.table.spawn worker argument))
    (keeps : scope.Keeps contract) (admitted : Admitted checks call)
    (settles : Settles runs caught contract world call) :
    (scope.invoke runs spawn caught world call).Agrees TaskScopeValue.Keeps
      (contract.serveCall runs world call) := by
  cases call with
  | spawn worker argument =>
    simp only [TaskScopeValue.invoke]
    rw [spawns scope worker argument (admitted worker argument rfl)]
    exact onTable_agrees keeps (spawn_follows runs keeps.table world worker argument)
  | cancel task => exact onTable_agrees keeps (cancel_follows runs keeps.table world task)
  | cancelAll => exact onTable_agrees keeps (cancelAll_follows runs keeps.table world)
  | pending =>
    simp only [TaskScopeValue.invoke, pending_eq keeps.table, Contract.serveCall]
    exact .answered keeps
  | closed =>
    simp only [TaskScopeValue.invoke, keeps.table.closed, Contract.serveCall]
    exact .answered keeps
  | joinAll => exact joinAll_agrees keeps settles

theorem treeSpawn_eq (scope : TaskScopeValue Worker Argument)
    (worker : Worker) (argument : Argument) (admits : checks.Admits argument) :
    treeSpawn checks scope worker argument = scope.onTable (scope.table.spawn worker argument) := by
  simp only [treeSpawn, admits.noCapability, admits.shareSafe, admits.noTaskScope, Bool.not_true,
    Bool.and_false, false_eq_true, if_false]

theorem mirSpawn_eq (scope : TaskScopeValue Worker Argument)
    (worker : Worker) (argument : Argument) (admits : checks.Admits argument) :
    mirSpawn checks scope worker argument = scope.onTable (scope.table.spawn worker argument) := by
  simp only [mirSpawn, admits.noCapability, admits.shareSafe, admits.notTaskScope, Bool.not_true,
    Bool.and_false, false_eq_true, if_false]

theorem treeInvoke_agrees (keeps : scope.Keeps contract)
    (admitted : Admitted checks call) (settles : Settles runs caughtByTree contract world call) :
    (treeInvoke checks runs scope world call).Agrees TaskScopeValue.Keeps
      (contract.serveCall runs world call) :=
  invoke_agrees treeSpawn_eq keeps admitted settles

theorem treeInvoke_agrees_of_noFault
    (keeps : scope.Keeps contract) (admitted : Admitted checks call)
    (calm : NoFault runs contract world call) :
    (treeInvoke checks runs scope world call).Agrees TaskScopeValue.Keeps
      (contract.serveCall runs world call) :=
  treeInvoke_agrees keeps admitted (calm.settles caughtByTree)

theorem mirInvoke_agrees (keeps : scope.Keeps contract)
    (admitted : Admitted checks call) (calm : NoFault runs contract world call) :
    (mirInvoke checks runs scope world call).Agrees TaskScopeValue.Keeps
      (contract.serveCall runs world call) :=
  invoke_agrees mirSpawn_eq keeps admitted (calm.settles fun _ => none)

theorem mirInvoke_stops (keeps : scope.Keeps contract)
    (raises : ¬ NoFault runs contract world call) :
    (∃ fault after, mirInvoke checks runs scope world call = .stopped fault after) ∧
      ∃ answer later after, contract.serveCall runs world call = .answered answer later after := by
  obtain ⟨rfl, waiting, fault, after, stopped⟩ := join_stops keeps.table raises
  refine ⟨⟨fault, after, ?_⟩, _, _, _, serveCall_join runs world waiting⟩
  simp only [mirInvoke, TaskScopeValue.invoke, TaskScopeValue.joinAll, keeps.result, waiting,
    map_none, stopped]

end Values

/-! ## The lane of the Go runtime -/

section Go

variable {scope : KsTaskScope Worker Argument} {contract : Contract Worker Argument}
  {checks : Checks Argument}

theorem ksTaskSpawn_eq (worker : Worker) {argument : Argument} (admits : checks.Admits argument) :
    ksTaskSpawn checks scope worker argument =
      scope.onTable (scope.table.spawn worker argument) := by
  simp only [ksTaskSpawn, Table.spawn, admits.noCapability, admits.shareSafe, admits.noTaskScope,
    Bool.not_true, false_eq_true, if_false]
  split
  · rfl
  · split <;> rfl

variable {world : World}

/-- A call on the table of a `KsTaskScope`. -/
theorem ksOnTable_agrees {α : Type} {answer : α → Answer} (keeps : scope.Keeps contract)
    {result : Except String (α × Table Worker Argument)}
    {reply : Reply (Contract Worker Argument) World Answer Fault}
    (follows : Follows answer contract world result reply) :
    (answerOf answer scope world (scope.onTable result)).Agrees KsTaskScope.Keeps reply := by
  cases follows with
  | refused message => exact .answered keeps
  | answered given tableKeeps joined =>
    exact .answered ⟨tableKeeps, by rw [joined]; exact keeps.joined, by
      rw [joined]; exact keeps.result⟩

variable {runs : Runs Worker Argument World}

theorem ksTaskJoinAll_agrees
    (keeps : scope.Keeps contract) (calm : NoFault runs contract world .joinAll) :
    (ksTaskJoinAll runs scope world).Agrees KsTaskScope.Keeps
      (contract.serveCall runs world .joinAll) := by
  unfold ksTaskJoinAll
  cases joined : contract.joined with
  | some firstFailure =>
    rw [keeps.joined, joined, serveCall_join_again runs world joined,
      keeps.result firstFailure joined]
    exact .answered keeps
  | none =>
    obtain ⟨ended, length, loop⟩ := join_follows keeps.table joined (calm.settles fun _ => none)
    rw [keeps.joined, joined, serveCall_join runs world joined]
    simp only [isSome_none, false_eq_true, if_false, loop]
    refine .answered ⟨keeps_joined keeps.table joined length _, rfl, ?_⟩
    rintro firstFailure ⟨⟩
    rfl

theorem goInvoke_agrees (keeps : scope.Keeps contract)
    (admitted : Admitted checks call) (calm : NoFault runs contract world call) :
    (goInvoke checks runs scope world call).Agrees KsTaskScope.Keeps
      (contract.serveCall runs world call) := by
  cases call with
  | spawn worker argument =>
    simp only [goInvoke]
    rw [ksTaskSpawn_eq worker (admitted worker argument rfl)]
    exact ksOnTable_agrees keeps (spawn_follows runs keeps.table world worker argument)
  | cancel task => exact ksOnTable_agrees keeps (cancel_follows runs keeps.table world task)
  | cancelAll => exact ksOnTable_agrees keeps (cancelAll_follows runs keeps.table world)
  | pending =>
    simp only [goInvoke, pending_eq keeps.table, Contract.serveCall]
    exact .answered keeps
  | closed =>
    simp only [goInvoke, keeps.table.closed, Contract.serveCall]
    exact .answered keeps
  | joinAll => exact ksTaskJoinAll_agrees keeps calm

end Go

/-! ## Agreement -/

/-- What a user sees of calls on a new scope, in one lane. -/
abbrev Seen (World : Type) := Except String (History World Answer Fault)

/-- The tree interpreter. -/
def treeLane (checks : Checks Argument) (runs : Runs Worker Argument World) (capacity : Int)
    (world : World) (calls : List (Call Worker Argument)) : Seen World :=
  (TaskScopeValue.new Worker Argument capacity).map fun scope =>
    serve (treeInvoke checks runs) scope world calls

/-- The native MIR executor. -/
def mirLane (checks : Checks Argument) (runs : Runs Worker Argument World) (capacity : Int)
    (world : World) (calls : List (Call Worker Argument)) : Seen World :=
  (TaskScopeValue.new Worker Argument capacity).map fun scope =>
    serve (mirInvoke checks runs) scope world calls

/-- The Go runtime. -/
def goLane (checks : Checks Argument) (runs : Runs Worker Argument World) (capacity : Int)
    (world : World) (calls : List (Call Worker Argument)) : Seen World :=
  (ksTaskScope Worker Argument capacity).map fun scope =>
    serve (goInvoke checks runs) scope world calls

def contractHistory (runs : Runs Worker Argument World) (capacity : Int) (world : World)
    (calls : List (Call Worker Argument)) : History World Answer Fault :=
  serve (Contract.serveCall runs) (Contract.new Worker Argument capacity.toNat) world calls

theorem newTable_keeps (capacity : Nat) :
    (newTable Worker Argument capacity).Keeps (Contract.new Worker Argument capacity) :=
  Table.keeps_waiting rfl (forall_mem_nil _) rfl

theorem new_keeps (capacity : Nat) : TaskScopeValue.Keeps ⟨newTable Worker Argument capacity, none⟩
      (Contract.new Worker Argument capacity) :=
  ⟨newTable_keeps capacity, rfl⟩

theorem ksNew_keeps (capacity : Nat) :
    KsTaskScope.Keeps ⟨newTable Worker Argument capacity, false, .unit⟩
      (Contract.new Worker Argument capacity) := by
  refine ⟨newTable_keeps capacity, rfl, ?_⟩
  rintro firstFailure ⟨⟩

theorem value_new_eq {capacity : Int} (bounded : 1 ≤ capacity ∧ capacity ≤ 4096) :
    TaskScopeValue.new Worker Argument capacity =
      .ok ⟨newTable Worker Argument capacity.toNat, none⟩ :=
  if_pos bounded

theorem ksTaskScope_eq {capacity : Int} (bounded : 1 ≤ capacity ∧ capacity ≤ 4096) :
    ksTaskScope Worker Argument capacity =
      .ok ⟨newTable Worker Argument capacity.toNat, false, .unit⟩ := by
  refine if_neg ?_
  rw [maxTaskCapacity]
  omega

theorem admitted_of_spawns {checks : Checks Argument} {calls : List (Call Worker Argument)}
    (admitted : ∀ worker argument, .spawn worker argument ∈ calls → checks.Admits argument) :
    ∀ call ∈ calls, Admitted checks call := by
  rintro call member worker argument rfl
  exact admitted worker argument member

/-- The three lanes keep the contract of task scopes exactly when no child that a join runs ends in
a fault. -/
theorem lanes_agree_iff (checks : Checks Argument) (runs : Runs Worker Argument World)
    (capacity : Int) (bounded : 1 ≤ capacity ∧ capacity ≤ 4096) (world : World)
    (calls : List (Call Worker Argument))
    (admitted : ∀ worker argument, .spawn worker argument ∈ calls → checks.Admits argument) :
    (treeLane checks runs capacity world calls = .ok (contractHistory runs capacity world calls) ∧
      mirLane checks runs capacity world calls = .ok (contractHistory runs capacity world calls) ∧
      goLane checks runs capacity world calls = .ok (contractHistory runs capacity world calls)) ↔
    Throughout (Contract.serveCall runs) (NoFault runs)
      (Contract.new Worker Argument capacity.toNat) world calls := by
  have allowed := admitted_of_spawns admitted
  have mir : serve (mirInvoke checks runs) ⟨newTable Worker Argument capacity.toNat, none⟩ world
      calls = contractHistory runs capacity world calls ↔
        Throughout (Contract.serveCall runs) (NoFault runs)
          (Contract.new Worker Argument capacity.toNat) world calls :=
    serve_eq_iff (fun _ _ _ _ => mirInvoke_agrees) (fun _ _ _ _ keeps _ => mirInvoke_stops keeps)
      (new_keeps capacity.toNat) allowed
  rw [treeLane, mirLane, goLane, value_new_eq bounded, ksTaskScope_eq bounded]
  constructor
  · rintro ⟨-, same, -⟩
    exact mir.mp (Except.ok.inj same)
  · intro calm
    refine ⟨congrArg Except.ok ?_, congrArg Except.ok (mir.mpr calm), congrArg Except.ok ?_⟩
    · exact serve_eq (fun _ _ _ _ => treeInvoke_agrees_of_noFault) (new_keeps capacity.toNat)
        allowed calm
    · exact serve_eq (fun _ _ _ _ => goInvoke_agrees) (ksNew_keeps capacity.toNat) allowed calm

/-- Every argument is a scalar. -/
def scalarChecks : Checks Int where
  containsCapability _ := false
  containsTaskScope _ := false
  isTaskScope _ := false
  shareSafe _ := true

/-- Children that write their arguments down; one of the workers calls itself without end. -/
def loggingRuns : Runs String Int (List Int) := fun worker argument log =>
  if worker = "descend" then
    (.fault ⟨"KS3105", "Çağrı derinliği sınırı aşıldı (512); sonsuz özyineleme olabilir."⟩,
      log ++ [argument])
  else (.finished, log ++ [argument])

theorem scalarChecks_admit (argument : Int) : scalarChecks.Admits argument := ⟨rfl, rfl, rfl, rfl⟩

/-- A scope whose child without end is cancelled. -/
def cancelledDescent : List (Call String Int) :=
  [.spawn "log" 1, .spawn "descend" 2, .spawn "log" 3, .cancel 1, .pending, .joinAll, .joinAll,
    .spawn "log" 4, .closed]

theorem cancelledDescent_agrees : treeLane scalarChecks loggingRuns 4 [] cancelledDescent =
        .ok (contractHistory loggingRuns 4 [] cancelledDescent) ∧
      mirLane scalarChecks loggingRuns 4 [] cancelledDescent =
        .ok (contractHistory loggingRuns 4 [] cancelledDescent) ∧
      goLane scalarChecks loggingRuns 4 [] cancelledDescent =
        .ok (contractHistory loggingRuns 4 [] cancelledDescent) := by
  refine (lanes_agree_iff scalarChecks loggingRuns 4 (by decide) [] cancelledDescent
    fun worker argument _ => scalarChecks_admit argument).mpr ?_
  have calm : ∀ ending ∈ [Ending.finished, Ending.finished], ∀ raised, ending ≠ .fault raised := by
    simp only [mem_cons, not_mem_nil, or_false, or_self, forall_eq, ne_eq, reduceCtorEq,
      not_false_eq_true, implies_true]
  refine ⟨?_, ?_, ?_, ?_, ?_, fun _ _ => calm, ?_, ?_, ?_, trivial⟩
  case refine_6 =>
    intro _ joined
    cases joined
  all_goals
    intro isJoin
    cases isJoin

/-- The tree interpreter returns the fault of the child as the result of the join; the other two
lanes stop. -/
theorem descent_disagrees : treeLane scalarChecks loggingRuns 1 [] [.spawn "descend" 7, .joinAll] =
        .ok (contractHistory loggingRuns 1 [] [.spawn "descend" 7, .joinAll]) ∧
      mirLane scalarChecks loggingRuns 1 [] [.spawn "descend" 7, .joinAll] ≠
        treeLane scalarChecks loggingRuns 1 [] [.spawn "descend" 7, .joinAll] ∧
      goLane scalarChecks loggingRuns 1 [] [.spawn "descend" 7, .joinAll] ≠
        treeLane scalarChecks loggingRuns 1 [] [.spawn "descend" 7, .joinAll] := by
  refine ⟨?_, fun same => ?_, fun same => ?_⟩
  · decide +kernel
  · have stopped := congrArg (fun seen => seen.toOption.map History.stopped) same
    revert stopped
    decide +kernel
  · have stopped := congrArg (fun seen => seen.toOption.map History.stopped) same
    revert stopped
    decide +kernel

end Koschei.Tasks
