import Koschei.Values.Kept

/-!
# The value runtime upholds a standard

The operations that call functions of the program or change the world, and from
them and the methods the theorem about the runtime (`runtime_upholds`): a run
whose steps read and compute numbers within the standard stays within it.
-/

namespace Koschei.Values

open Lib Ast

variable {stop : Fault} {std : Standard} {outside : Outside} {declared : Declared} {world : World}

abbrev Keeps (stop : Fault) (std : Standard) (primitive : Prim World) : Prop :=
  PrimKeeps stop (Within std) (WorldWithin std) primitive

theorem keeps_done {result : Except Fault Value} (holds : ResultWithin std result)
    (within : WorldWithin std world) : Keeps stop std (.done result world) := ⟨holds, within⟩

variable {value receiver : Value}

theorem keeps_ok (holds : Within std value) (within : WorldWithin std world) :
    Keeps stop std (.done (.ok value) world) := keeps_done (resultWithin_ok holds) within

theorem keeps_error (fault : Fault) (within : WorldWithin std world) :
    Keeps stop std (.done (.error fault) world) := keeps_done (resultWithin_error fault) within

/-! ## Loops over callbacks -/

/-- What a loop goes on with is as it should be. -/
def TakenWithin (std : Standard) {α : Type} (A : α → Prop) : Taken α → Prop
  | .finish result => ResultWithin std result
  | .next accumulator => A accumulator

variable {α : Type} {items arguments : List Value} {A : α → Prop}

theorem forEach_keeps {moduleKey name : String}
    {arguments : α → Value → List Value} {take : α → Value → Value → World → Taken α}
    {finish : α → Value} (argumentsWithin : ∀ accumulator item, A accumulator → Within std item →
      ∀ argument ∈ arguments accumulator item, Within std argument)
    (taken : ∀ accumulator item value world, A accumulator → Within std item → Within std value →
      TakenWithin std A (take accumulator item value world))
    (finished : ∀ accumulator, A accumulator → Within std (finish accumulator))
    (holds : ∀ item ∈ items, Within std item) {accumulator : α}
    (start : A accumulator) (within : WorldWithin std world) :
    Keeps stop std (forEach moduleKey name arguments take finish items accumulator world) := by
  induction items generalizing accumulator world with
  | nil => exact keeps_ok (finished _ start) within
  | cons item rest ih =>
    obtain ⟨itemHolds, others⟩ := forall_mem_cons.mp holds
    refine ⟨argumentsWithin _ _ start itemHolds, within, fun _ => rfl,
      fun result world resultHolds within => ?_⟩
    cases result with
    | error fault => exact keeps_error fault within
    | ok value =>
      have next := taken accumulator item value world start itemHolds (resultHolds value rfl)
      dsimp only
      cases step : take accumulator item value world with
      | finish result =>
        rw [step] at next
        exact keeps_done next within
      | next accumulator =>
        rw [step] at next
        exact ih others next within

/-- The answer of a predicate. -/
theorem decision_within (method : String) (value : Value)
    {next : Bool → Taken α} (holds : ∀ b, TakenWithin std A (next b)) :
    TakenWithin std A (decision method value next) := by
  unfold decision
  split
  · exact resultWithin_ok trivial
  · exact holds _
  · exact resultWithin_ok trivial

theorem collected_within {results : List Value} (holds : ∀ item ∈ results, Within std item)
    (valueHolds : Within std value) (message : String) :
    TakenWithin std (fun results => ∀ item ∈ results, Within std item)
      (collected world results value message) := by
  unfold collected
  split
  · exact resultWithin_ok trivial
  · split
    · exact resultWithin_error _
    · intro item member
      rcases mem_append.mp member with old | new
      · exact holds item old
      · rw [mem_singleton.mp new]
        exact valueHolds

theorem append_within (holds : ∀ item ∈ items, Within std item)
    (valueHolds : Within std value) : ∀ item ∈ items ++ [value], Within std item := by
  intro item member
  rcases mem_append.mp member with old | new
  · exact holds item old
  · rw [mem_singleton.mp new]
    exact valueHolds

theorem single_within (holds : Within std value) : ∀ argument ∈ [value], Within std argument := by
  simpa using holds

theorem optionNone_within : Within std optionNone := trivial

theorem bool_within (b : Bool) : Within std (.bool b) := trivial

theorem callbackLoop_keeps (method moduleKey name : String)
    (others : ∀ argument ∈ arguments, Within std argument)
    (holds : ∀ item ∈ items, Within std item) (within : WorldWithin std world) :
    Keeps stop std (callbackLoop method moduleKey name arguments items world) := by
  unfold callbackLoop
  split
  · refine forEach_keeps (A := fun kept => ∀ item ∈ kept, Within std item)
      (fun _ _ _ itemHolds => single_within itemHolds)
      (fun kept item value _ start itemHolds _ => decision_within _ _ fun b => ?_)
      (fun _ => within_list.mpr) holds (by simp) within
    cases b with
    | true => exact append_within start itemHolds
    | false => exact start
  · refine forEach_keeps (A := fun _ => True) (fun _ _ _ itemHolds => single_within itemHolds)
      (fun _ item value _ _ itemHolds _ => decision_within _ _ fun b => ?_)
      (fun _ _ => optionNone_within) holds trivial within
    cases b with
    | true => exact resultWithin_ok (optionSome_within itemHolds)
    | false => trivial
  · refine forEach_keeps (A := fun _ => True) (fun _ _ _ itemHolds => single_within itemHolds)
      (fun _ item value _ _ itemHolds _ => decision_within _ _ fun b => ?_)
      (fun _ _ => bool_within false) holds trivial within
    cases b with
    | true => exact resultWithin_ok trivial
    | false => trivial
  · refine forEach_keeps
      (A := fun both => (∀ item ∈ both.1, Within std item) ∧ ∀ item ∈ both.2, Within std item)
      (fun _ _ _ itemHolds => single_within itemHolds)
      (fun both item value _ start itemHolds _ => decision_within _ _ fun b => ?_)
      (fun both parts => ?_) holds ⟨by simp, by simp⟩ within
    · cases b with
      | true => exact ⟨append_within start.1 itemHolds, start.2⟩
      | false => exact ⟨start.1, append_within start.2 itemHolds⟩
    · refine within_list.mpr fun item member => ?_
      rcases mem_cons.mp member with rfl | second
      · exact within_list.mpr parts.1
      · rw [mem_singleton.mp second]
        exact within_list.mpr parts.2
  · exact forEach_keeps (A := fun results => ∀ item ∈ results, Within std item)
      (fun _ _ _ itemHolds => single_within itemHolds)
      (fun results item value _ start _ valueHolds => collected_within start valueHolds _)
      (fun _ => within_list.mpr) holds (by simp) within
  · refine forEach_keeps (A := fun results => ∀ item ∈ results, Within std item)
      (fun results item start itemHolds => ?_)
      (fun results item value _ start _ valueHolds => collected_within start valueHolds _)
      (fun _ => within_list.mpr) holds (by simp) within
    intro argument member
    rcases mem_cons.mp member with rfl | second
    · cases results using reverseRecOn with
      | nil =>
        cases arguments with
        | nil => trivial
        | cons first rest => exact others first mem_cons_self
      | append_singleton results last => simpa using start last (by simp)
    · rw [mem_singleton.mp second]
      exact itemHolds

theorem invokeCallback_keeps (method : String) (contract : CallbackMethod)
    (others : ∀ argument ∈ arguments, Within std argument)
    (holds : ∀ item ∈ items, Within std item) (within : WorldWithin std world) :
    Keeps stop std (invokeCallback declared method contract items arguments world) := by
  unfold invokeCallback
  split
  · exact keeps_error _ within
  · split
    · exact keeps_error _ within
    · split
      · split
        · split
          · exact callbackLoop_keeps method _ _ others holds within
          · exact keeps_ok trivial within
        · exact callbackLoop_keeps method _ _ others holds within
      · exact keeps_ok trivial within

/-! ## Capabilities and bound methods -/

/-- A result and the world after it. -/
def OutcomeWithin (std : Standard) (outcome : Except Fault Value × World) : Prop :=
  ResultWithin std outcome.1 ∧ WorldWithin std outcome.2

section

variable (within : WorldWithin std world)

include within

theorem outcome_ok (holds : Within std value) :
    OutcomeWithin std (.ok value, world) := ⟨resultWithin_ok holds, within⟩

theorem outcome_error (fault : Fault) :
    OutcomeWithin std (.error fault, world) := ⟨resultWithin_error fault, within⟩

theorem outcome_allocate {object : HostObject} (holds : ObjectWithin std object) :
    OutcomeWithin std (.ok (world.allocate object).1, (world.allocate object).2) :=
  outcome_ok (within.allocate holds).2 (within.allocate holds).1

theorem answerValue_within (answer : Answer) : OutcomeWithin std (answerValue world answer) := by
  cases answer with
  | text text => exact outcome_ok within trivial
  | texts texts => exact outcome_ok within (within_texts texts)
  | done => exact outcome_ok within trivial
  | failure message => exact outcome_ok within trivial
  | response body status =>
    refine outcome_allocate within (std.inRange _ ⟨?_, ?_⟩)
    · unfold intMin
      omega
    · have := status.isLt
      unfold intMax
      omega
  | refused fault => exact outcome_error within fault

theorem invokeCapability_within (outside : Outside) (authority : std.authority) (kind : Capability)
    (scope : List Value) (token : Nat) (name : String) (arguments : List Value) :
    OutcomeWithin std (invokeCapability outside kind scope token name arguments world) := by
  have recorded := within.record authority ⟨token, name, arguments⟩
  unfold invokeCapability
  dsimp only
  split
  · split
    · exact answerValue_within recorded _
    · exact outcome_allocate recorded ⟨authority, by simp⟩
  · exact answerValue_within recorded _

variable {name : String}

theorem finishMethod_keeps
    {result : Option (Except Fault Value)} (holds : ∀ r, result = some r → ResultWithin std r) :
    Keeps stop std (finishMethod receiver name arguments world result) := by
  unfold finishMethod
  cases result with
  | none => exact keeps_error _ within
  | some r => exact keeps_done (holds r rfl) within

theorem invokeMember_keeps
    (readable : ∀ text, receiver = .str text → name = "to_int" → Readable std outside text)
    (holds : Within std receiver) (others : ∀ argument ∈ arguments, Within std argument) :
    Keeps stop std (invokeMember outside declared receiver name arguments world) := by
  unfold invokeMember
  split
  · exact finishMethod_keeps within (fun r run => textMethod_within (readable _ rfl) run)
  · have items := within_list.mp holds
    split
    · exact invokeCallback_keeps _ _ others items within
    · exact finishMethod_keeps within (fun r run => listMethod_within items others run)
  · exact finishMethod_keeps within (fun r run => mapMethod_within (within_map.mp holds) others run)
  · rename_i address
    split
    · exact keeps_ok trivial within
    · rename_i found
      exact keeps_ok (within.objects _ _ found holds) within
    · exact keeps_error _ within
    · rename_i kind scope _ found
      have outcome (method : String) (values : List Value) :=
        invokeCapability_within within outside (within.objects _ _ found holds).1 kind scope
          address method values
      exact keeps_done (outcome _ _).1 (outcome _ _).2
    · exact keeps_error _ within
  · exact keeps_error _ within

/-! ## Constructors -/

omit within in
theorem invokeConstructor_within (constructor : EnumConstructor)
    (others : ∀ argument ∈ arguments, Within std argument) :
    ResultWithin std (invokeConstructor outside constructor arguments world) := by
  unfold invokeConstructor
  split
  · have bare (typeArguments : List String) :
        ResultWithin std (pure (.enum constructor.enumName constructor.variant none
          typeArguments)) := resultWithin_ok (within_enum.mpr (by rintro _ ⟨⟩))
    dsimp only
    split
    · exact bare []
    · exact resultWithin_bind fun typeArguments _ => bare typeArguments
  · have holds := others _ mem_cons_self
    split
    · exact resultWithin_error _
    · split
      · split
        · exact resultWithin_ok (within_asPayload holds)
        · exact resultWithin_error _
      · exact resultWithin_bind fun _ _ => resultWithin_ok (within_asPayload holds)
  · exact resultWithin_error _

/-! ## Bounded queues -/

omit within in
/-- A number no larger than a bound below the largest Int. -/
theorem within_count {n bound : Nat} (le : n ≤ bound) (small : bound ≤ 65536) :
    Within std (.int n) := by
  refine std.inRange _ ⟨?_, ?_⟩
  · unfold intMin
    omega
  · unfold intMax
    omega

theorem newQueue_within (capacity witness : Value) :
    OutcomeWithin std (newQueue outside capacity witness world) := by
  unfold newQueue
  split
  · exact outcome_error within _
  · split
    · split
      · refine outcome_allocate within fun item member value same => ?_
        rw [List.eq_of_mem_replicate member] at same
        cases same
      · exact outcome_ok within trivial
    · exact outcome_ok within trivial

end

variable {address : Nat} {queue : BoundedQueue}

section

variable (inside : ObjectWithin std (.queue queue))

include inside

theorem sendTo_within (holds : Within std value) (within : WorldWithin std world) :
    OutcomeWithin std (sendTo outside address queue value world) := by
  have sent : ObjectWithin std (.queue (queue.trySend value).2) := by
    unfold BoundedQueue.trySend
    split
    · exact inside
    · intro item member other same
      rcases List.mem_or_eq_of_mem_set member with old | rfl
      · exact inside item old other same
      · cases same
        exact holds
  unfold sendTo
  split
  · exact outcome_error within _
  · split
    · exact outcome_ok (within.replace sent) trivial
    · exact outcome_error within _

theorem receiveFrom_within (within : WorldWithin std world) :
    OutcomeWithin std (receiveFrom address queue world) := by
  unfold receiveFrom BoundedQueue.tryRecv
  split
  · rename_i value queue' taken
    split at taken
    · cases taken
    · obtain ⟨first, rfl⟩ := Prod.mk.inj taken
      refine outcome_ok (within.replace fun item member other same => ?_) ?_
      · rcases List.mem_or_eq_of_mem_set member with old | rfl
        · exact inside item old other same
        · cases same
      · have read := Option.join_eq_some_iff.mp first
        exact inside (some value) (mem_of_getElem? read) value rfl
  · exact outcome_ok within trivial

theorem queueBuiltin_within
    (others : ∀ argument ∈ arguments, Within std argument) (within : WorldWithin std world) :
    OutcomeWithin std (queueBuiltin outside name address queue arguments world) := by
  unfold queueBuiltin
  split
  · exact sendTo_within inside (others _ mem_cons_self) within
  · exact receiveFrom_within inside within
  · exact outcome_ok within (within_count (queue.count_le.trans queue.capacity_le) le_rfl)
  · exact outcome_ok within (within_count queue.capacity_le le_rfl)

end

/-! ## Task scopes -/

variable {scope scope' : TaskScope}

section

variable (within : WorldWithin std world)

include within

theorem scopeAt_within (admitted : std.object address)
    (found : scopeAt world address = some scope) : ObjectWithin std (.tasks scope) := by
  unfold scopeAt at found
  split at found
  · rename_i other read
    cases found
    exact within.objects _ _ read admitted
  · cases found

theorem onScope_within {change : TaskScope → TaskScope} (admitted : std.object address)
    (keeps : ∀ scope, ObjectWithin std (.tasks scope) → ObjectWithin std (.tasks (change scope))) : WorldWithin std (world.onScope address change) := by
  unfold World.onScope
  split
  · rename_i scope found
    exact within.replace (keeps scope (scopeAt_within within admitted found))
  · exact within

omit within in
theorem update_within (index : Nat) {change : TaskRecord → TaskRecord}
    (keeps : ∀ record, RecordWithin std record → RecordWithin std (change record))
    (inside : ObjectWithin std (.tasks scope)) :
    ObjectWithin std (.tasks (scope.update index change)) := by
  refine ⟨fun record member => ?_, inside.2⟩
  obtain ⟨i, read⟩ := List.mem_iff_getElem?.mp member
  simp only [TaskScope.update, List.getElem?_modify] at read
  obtain ⟨old, at?, rfl⟩ := map_eq_some_iff.mp read
  have holds := inside.1 old (mem_of_getElem? at?)
  split
  · exact keeps old holds
  · exact holds

theorem newScope_within (capacity : Value) : OutcomeWithin std (newScope capacity world) := by
  unfold newScope
  split
  · split
    · exact outcome_allocate within ⟨by simp, by rintro _ ⟨⟩⟩
    · exact outcome_ok within trivial
  · exact outcome_ok within trivial

omit within in
theorem spawn_within {record : TaskRecord} {task : Int}
    (inside : ObjectWithin std (.tasks scope)) (holds : RecordWithin std record)
    (spawned : scope.spawn record = .ok (task, scope')) :
    Within std (.int task) ∧ ObjectWithin std (.tasks scope') := by
  unfold TaskScope.spawn at spawned
  split at spawned
  · cases spawned
  · split at spawned
    · cases spawned
      refine ⟨within_count (scope.slots_le.trans scope.capacity_le) (by simp [maxTaskCapacity]),
        fun other member => ?_, inside.2⟩
      rcases mem_append.mp member with old | new
      · exact inside.1 other old
      · rw [mem_singleton.mp new]
        exact holds
    · cases spawned

theorem spawnTask_within {scopeValue worker argument : Value} (scopeHolds : Within std scopeValue)
    (workerHolds : Within std worker) (holds : Within std argument) :
    OutcomeWithin std (spawnTask declared scopeValue worker argument world) := by
  unfold spawnTask
  split
  · exact outcome_ok within trivial
  · split
    · rename_i address scope found
      have inside := within.objectOf scopeHolds found
      split
      · split
        · exact outcome_ok within trivial
        · split
          · exact outcome_ok within trivial
          · split
            · exact outcome_ok within trivial
            · split
              · exact outcome_ok within trivial
              · split
                · rename_i task scope' spawned
                  obtain ⟨taskHolds, kept⟩ := spawn_within inside ⟨workerHolds, holds⟩ spawned
                  exact outcome_ok (within.replace kept) taskHolds
                · exact outcome_ok within trivial
      · exact outcome_ok within trivial
    · exact outcome_ok within trivial

theorem joinTasks_keeps (foreign : isKoscheiFault stop = false) (admitted : std.object address) (indices : List Nat)
    {failure : Option Value} (failed : ∀ value, failure = some value → Within std value) :
    Keeps stop std (joinTasks address indices failure world) := by
  induction indices generalizing failure world with
  | nil =>
    have result : Within std (failure.getD .unit) := by
      cases failure with
      | none => exact trivial
      | some value => exact failed value rfl
    refine keeps_ok result (onScope_within within admitted (fun scope inside => ⟨inside.1, ?_⟩))
    rintro _ ⟨⟩
    exact result
  | cons index rest ih =>
    unfold joinTasks
    split
    · exact keeps_error _ within
    · rename_i record found
      split
      · exact ih within failed
      · split
        · obtain ⟨scope, at?, read⟩ := bind_eq_some_iff.mp found
          have holds := (scopeAt_within within admitted at?).1 record (mem_of_getElem? read)
          have changed {change : TaskRecord → TaskRecord}
              (keeps : ∀ record, RecordWithin std record → RecordWithin std (change record))
              {world : World} (within : WorldWithin std world) :
              WorldWithin std (world.onScope address fun scope => scope.update index change) :=
            onScope_within within admitted (fun _ => update_within index keeps)
          refine ⟨single_within holds.argument, changed ?_ within, fun _ => by simp [foreign],
            fun result world _ within => ?_⟩
          · exact fun record holds => ⟨holds.worker, holds.argument⟩
          have own (found : Option Value) (foundWithin : ∀ value, found = some value →
              Within std value) :
              Keeps stop std (joinTasks address rest (failure.or found) (world.onScope address
                fun scope => scope.update index (markTerminal found))) := by
            refine ih (changed ?_ within) fun value same => ?_
            · exact fun record holds => ⟨holds.worker, holds.argument⟩
            rcases Option.or_eq_some_iff.mp same with first | ⟨-, second⟩
            · exact failed value first
            · exact foundWithin value second
          dsimp only
          split
          · exact own _ (by rintro _ ⟨⟩; trivial)
          · exact own _ (by rintro _ ⟨⟩)
          · split
            · exact own _ (by rintro _ ⟨⟩; trivial)
            · exact keeps_error _ within
        · exact keeps_error _ within

theorem joinAll_keeps (foreign : isKoscheiFault stop = false) (admitted : std.object address)
    (inside : ObjectWithin std (.tasks scope)) : Keeps stop std (joinAll address scope world) := by
  unfold joinAll
  split
  · rename_i result joined
    exact keeps_ok (inside.2 result joined) within
  · refine joinTasks_keeps ?_ foreign admitted _ (by rintro _ ⟨⟩)
    exact onScope_within within admitted fun _ inside => ⟨inside.1, inside.2⟩

theorem scopeResult_within {value : α → Value} {result : Except String (α × TaskScope)}
    (holds : ∀ a scope, result = .ok (a, scope) →
      Within std (value a) ∧ ObjectWithin std (.tasks scope)) :
    OutcomeWithin std (scopeResult address world value result) := by
  unfold scopeResult
  split
  · rename_i a scope
    obtain ⟨answer, kept⟩ := holds a scope rfl
    exact outcome_ok (within.replace kept) answer
  · exact outcome_ok within trivial

omit within in
theorem cancel_within {task : Value} {cancelled : Bool}
    (inside : ObjectWithin std (.tasks scope)) (run : scope.cancel task = .ok (cancelled, scope')) :
    ObjectWithin std (.tasks scope') := by
  unfold TaskScope.cancel at run
  split at run
  · cases run
  · split at run
    · split at run
      · cases run
      · split at run
        · cases run
        · split at run
          · cases run
            exact update_within _ (fun record holds => ⟨holds.1, holds.2⟩) inside
          · cases run
            exact inside
    · cases run

omit within in
theorem cancelAll_within {count : Nat}
    (inside : ObjectWithin std (.tasks scope)) (run : scope.cancelAll = .ok (count, scope')) :
    Within std (.int count) ∧ ObjectWithin std (.tasks scope') := by
  unfold TaskScope.cancelAll at run
  split at run
  · cases run
  · cases run
    refine ⟨within_count (List.countP_le_length.trans (scope.slots_le.trans scope.capacity_le))
      (by simp [maxTaskCapacity]), fun record member => ?_, inside.2⟩
    obtain ⟨old, before, rfl⟩ := mem_map.mp member
    have holds := inside.1 old before
    split
    · exact ⟨holds.worker, holds.argument⟩
    · exact holds

theorem taskBuiltin_keeps (foreign : isKoscheiFault stop = false) (admitted : std.object address)
    (inside : ObjectWithin std (.tasks scope)) :
    Keeps stop std (taskBuiltin name address scope arguments world) := by
  have bounded {count : Nat} (le : count ≤ scope.slots.length) : Within std (.int count) :=
    within_count (le.trans (scope.slots_le.trans scope.capacity_le)) (by simp [maxTaskCapacity])
  unfold taskBuiltin
  dsimp only
  split
  · exact joinAll_keeps within foreign admitted inside
  · exact scopeResult_within within (fun b scope run => ⟨bool_within b, cancel_within inside run⟩)
  · exact scopeResult_within within (fun count scope run => cancelAll_within inside run)
  · exact keeps_ok (bounded List.countP_le_length) within
  · exact keeps_ok (within_count scope.capacity_le (by simp [maxTaskCapacity])) within
  · exact keeps_ok trivial within

/-! ## Parallel map -/

theorem parallelMap_keeps {values worker maxWorkers : Value} (holds : Within std values) :
    Keeps stop std (parallelMap values worker maxWorkers world) := by
  unfold parallelMap
  dsimp only
  split
  · split
    · split
      · exact keeps_ok trivial within
      · split
        · exact keeps_ok trivial within
        · refine forEach_keeps (A := fun results => ∀ item ∈ results, Within std item)
            (fun _ _ _ itemHolds => single_within itemHolds)
            (fun results item mapped world start _ mappedHolds => ?_)
            (fun _ => within_list.mpr) (within_list.mp holds) (by simp) within
          split
          · exact resultWithin_ok trivial
          · split
            · exact resultWithin_ok trivial
            · exact append_within start mappedHolds
    · exact keeps_ok trivial within
  · exact keeps_ok trivial within
  · exact keeps_ok trivial within

end

/-! ## Decimals and JSON -/

def PairWithin (std : Standard) (answer : Value × World) : Prop :=
  Within std answer.1 ∧ WorldWithin std answer.2

section

variable (within : WorldWithin std world)

include within

theorem decimalOf_within (atoms scale : Int) (overflow : String) :
    PairWithin std (decimalOf atoms scale overflow world) := by
  unfold decimalOf
  split
  · exact within.allocate trivial
  · exact ⟨trivial, within⟩

theorem parseDecimal_within (raw scale : Value) :
    PairWithin std (parseDecimal raw scale world) := by
  unfold parseDecimal
  split
  · split
    · exact ⟨trivial, within⟩
    · split
      · exact ⟨trivial, within⟩
      · split
        · exact ⟨trivial, within⟩
        · dsimp only
          split
          · exact ⟨trivial, within⟩
          · exact decimalOf_within within _ _ _
  · exact ⟨trivial, within⟩
  · exact ⟨trivial, within⟩

omit within in
/-- The outcomes of a comparison are Ints in range. -/
theorem within_sign (i j : Int) :
    Within std (.int (if i < j then -1 else if j < i then 1 else 0)) := by
  refine std.inRange _ ?_
  unfold InRange intMin intMax
  split
  · omega
  · split
    · omega
    · omega

theorem decimalBuiltin_within (name : String) (arguments : List Value) : PairWithin std (decimalBuiltin name arguments world) := by
  unfold decimalBuiltin
  split
  · exact parseDecimal_within within _ _
  · split
    · exact ⟨trivial, within⟩
    · exact ⟨trivial, within⟩
  · split
    · exact ⟨trivial, within⟩
    · split
      · exact decimalOf_within within _ _ _
      · split
        · exact decimalOf_within within _ _ _
        · exact ⟨within_sign _ _, within⟩
  · exact ⟨trivial, within⟩

theorem parseJson_within (raw : Value) : PairWithin std (parseJson outside raw world) := by
  unfold parseJson
  split
  · split
    · exact within.allocate trivial
    · exact ⟨trivial, within⟩
  · exact ⟨trivial, within⟩

end

theorem encodeJson_within (value : Value) : Within std (encodeJson outside value world) := by
  unfold encodeJson
  split
  · split
    · exact trivial
    · exact trivial
  · exact trivial

/-! ## Invocation -/

section

variable (others : ∀ argument ∈ arguments, Within std argument)

include others

section

variable (foreign : isKoscheiFault stop = false)

include foreign

theorem handleBuiltin_keeps {handle : Value} (holds : Within std handle)
    (within : WorldWithin std world) :
    Keeps stop std (handleBuiltin outside name handle arguments world) := by
  unfold handleBuiltin
  dsimp only
  split
  · rename_i address queue found
    have outcome : OutcomeWithin std (queueBuiltin outside name address queue arguments world) :=
      queueBuiltin_within (within.objectOf holds found) others within
    split
    · exact keeps_done outcome.1 outcome.2
    · exact keeps_ok trivial within
  · rename_i address scope found
    split
    · exact keeps_ok trivial within
    · exact taskBuiltin_keeps within foreign holds (within.objectOf holds found)
  · exact keeps_ok trivial within

theorem invokeBuiltin_keeps (within : WorldWithin std world) :
    Keeps stop std (invokeBuiltin outside declared name arguments world) := by
  unfold invokeBuiltin
  dsimp only
  split
  · split
    · exact keeps_ok trivial (within.write _)
    · exact keeps_error _ within
  · split
    · exact keeps_ok trivial (within.write _)
    · exact keeps_error _ within
  · split
    · exact keeps_ok trivial within
    · exact keeps_error _ within
  · rename_i raw
    have answer : PairWithin std (parseJson outside raw world) := parseJson_within within raw
    exact keeps_ok answer.1 answer.2
  · exact keeps_ok (encodeJson_within _) within
  · rename_i capacity witness
    have outcome : OutcomeWithin std (newQueue outside capacity witness world) :=
      newQueue_within within capacity witness
    exact keeps_done outcome.1 outcome.2
  · exact parallelMap_keeps within (others _ mem_cons_self)
  · rename_i capacity
    have outcome := newScope_within within capacity
    exact keeps_done outcome.1 outcome.2
  · rename_i scope worker argument
    have outcome : OutcomeWithin std (spawnTask declared scope worker argument world) :=
      spawnTask_within within (others scope (by simp)) (others worker (by simp))
        (others argument (by simp))
    exact keeps_done outcome.1 outcome.2
  · split
    · have answer := decimalBuiltin_within within name arguments
      exact keeps_ok answer.1 answer.2
    · split
      · exact handleBuiltin_keeps (forall_mem_cons.mp others).2 foreign (others _ mem_cons_self) within
      · exact keeps_error _ within

theorem invokeValue_keeps {callee : Value}
    (readable : ∀ text, callee = .member (.str text) "to_int" → Readable std outside text)
    (holds : Within std callee) (within : WorldWithin std world) :
    Keeps stop std (invokeValue outside declared callee arguments world) := by
  unfold invokeValue
  split
  · split
    · exact keeps_done (invokeConstructor_within _ others) within
    · exact keeps_error _ within
  · split
    · split
      · exact invokeBuiltin_keeps others foreign within
      · exact keeps_error _ within
    · exact keeps_error _ within
  · rename_i receiver name
    refine invokeMember_keeps within (fun text same called => readable text ?_) holds others
    rw [same, called]
  · exact keeps_error _ within

end

end

/-! ## Operators -/

variable {op : ArithOp}

/-- What the host's arithmetic on numbers gives. -/
theorem arithNum_shape {a b : Num} (run : outside.host.arithNum op a b = .ok value) :
    (∃ i, value = .int i) ∨ ∃ bits, value = .float bits := by
  have double {op : ArithOp} {a b : Num} (run : outside.host.arith op a b = .ok value) :
      ∃ bits, value = .float bits := by
    obtain ⟨bits, -, rfl⟩ := map_eq_ok run
    exact ⟨bits, rfl⟩
  unfold Host.arithNum at run
  split at run
  · split at run
    · cases run
      exact .inl ⟨_, rfl⟩
    · cases run
      exact .inl ⟨_, rfl⟩
    · cases run
      exact .inl ⟨_, rfl⟩
    · exact .inr (double run)
  · exact .inr (double run)

theorem repeatList_subset {items : List α} {count : Int} {item : α}
    (member : item ∈ Host.repeatList items count) : item ∈ items := by
  obtain ⟨part, copy, inside⟩ := List.mem_flatten.mp member
  rwa [List.eq_of_mem_replicate copy] at inside

theorem arithValue_within {left right value : Value}
    (leftHolds : Within std left) (rightHolds : Within std right)
    (number : ∀ i, value = .int i → std.int i)
    (run : outside.host.arithValue op left right = .ok value) : Within std value := by
  have copies {items : List Value} (holds : Within std (.list items)) (count : Int) :
      Within std (.list (Host.repeatList items count)) :=
    within_list.mpr fun item member => within_list.mp holds item (repeatList_subset member)
  unfold Host.arithValue at run
  split at run
  · rcases arithNum_shape run with ⟨i, rfl⟩ | ⟨bits, rfl⟩
    · exact number i rfl
    · trivial
  · split at run
    · cases run
      trivial
    · cases run
      refine within_list.mpr fun item member => ?_
      rcases mem_append.mp member with first | second
      · exact within_list.mp leftHolds item first
      · exact within_list.mp rightHolds item second
    · split at run
      · cases run
        trivial
      · cases run
    · split at run
      · cases run
        trivial
      · cases run
    · split at run
      · cases run
        exact copies leftHolds _
      · cases run
    · split at run
      · cases run
        exact copies rightHolds _
      · cases run
    · cases run

/-! ## The runtime -/

theorem writeField_within {receiver item : Value} (field : String) (holds : Within std receiver)
    (itemHolds : Within std item) (within : WorldWithin std world) :
    WorldWithin std (writeField receiver field item world) := by
  unfold writeField
  split
  · rename_i address typeName fields typeArguments found
    have inside := within.objectOf holds found
    refine within.replace fun entry member => ?_
    rcases mem_setEntry member with old | rfl
    · exact inside entry old
    · exact itemHolds
  · exact within

/-- What the steps of a run have to keep to: `to_int` reads numbers within the standard, and so
does the host's arithmetic, where an operand is no Int. What stops a guarded run is no fault that
a task scope would take for the failure of a task. -/
structure KeepsNumbers (std : Standard) (outside : Outside) (conditions : Conditions World) :
    Prop where
  foreign : isKoscheiFault conditions.stop = false
  readable : ∀ world callee arguments, conditions.invoke world callee arguments →
    ∀ text, callee = .member (.str text) "to_int" → Readable std outside text
  number : ∀ operator op left right i, arithOf operator = some op →
    conditions.operands operator left right → NotBothInts left right →
      outside.host.arithValue op left right = .ok (.int i) → std.int i

theorem runtime_upholds {std : Standard} {outside : Outside} {conditions : Conditions World}
    (numbers : KeepsNumbers std outside conditions) (declared : Declared) :
    Upholds conditions (runtime outside declared) (Within std) (WorldWithin std) where
  values := hereditary_within std
  constructor name value found := by
    obtain ⟨-, -, rfl⟩ := map_eq_some_iff.mp found
    trivial
  member world receiver name value within holds run := memberOf_within within holds name value run
  invoke world callee arguments within holds others met :=
    invokeValue_keeps others numbers.foreign (numbers.readable world callee arguments met) holds within
  arith operator op left right value which met other leftHolds rightHolds run :=
    arithValue_within leftHolds rightHolds
      (fun i same => numbers.number operator op left right i which met other (same ▸ run)) run
  newStruct world typeName fields typeArguments within holds := within.allocate holds
  write world receiver field value within holds itemHolds _ :=
    writeField_within field holds itemHolds within

end Koschei.Values
