import Koschei.Lib.Pool
import Koschei.Values.Plain

/-!
# `parallel_map` in the interpreter and in the Go binary

The interpreter calls the worker for one item after the other and returns at the
first failure. `ksParallelMap` starts goroutines that take the indexes from one
atomic counter, and collects results and failures by index. `ksEnter` and
`ksLeave` count the active calls of all goroutines in one `ksDepth`, where the
interpreter has one call active at a time.

An admitted worker is a leaf: it calls no function, so that its own call is the
only one it adds to the depth. What its body computes for an item is a parameter,
the same in both lanes.
-/

namespace Koschei.Go

open Lib Values

/-- A worker that ends on every item. The interpreter may refuse its result by the contract of
the worker; where it does not, the compiled worker computes the same. -/
structure LeafWorker where
  interpreted : Value → Except Fault Value
  compiled : Value → Value
  agrees : ∀ item value, interpreted item = .ok value → compiled item = value

/-! ## The interpreter -/

/-- `_call_function`, of the worker at a depth of calls. -/
def LeafWorker.call (worker : LeafWorker) (depth : Nat) (arguments : List Value) :
    Except Fault Value :=
  match arguments with
  | [item] =>
    if depth ≥ maxCallDepth then
      .error ⟨"KS3105", "Çağrı derinliği sınırı aşıldı (" ++ toString maxCallDepth ++
        "); sonsuz özyineleme olabilir."⟩
    else worker.interpreted item
  | arguments =>
    .error ⟨"KS3101", "1 argüman bekleniyor, " ++ toString arguments.length ++ " verildi."⟩

/-- A primitive of the interpreter, run with the answers its calls get. -/
def answeredBy (call : List Value → Except Fault Value) : Prim World → Except Fault Value
  | .done result _ => result
  | .call _ _ arguments world resume => answeredBy call (resume (call arguments) world)

/-! ## The Go runtime -/

/-- The `results` and the `failures` of a run, a slot for each index; a slot is `none` where the
Go slice holds `nil`. -/
structure Slots where
  results : List (Option Value)
  failures : List (Option String)

/-- What a goroutine does with the value it has mapped at its index. -/
def Slots.put (world : World) (index : Nat) (mapped : Value) (slots : Slots) : Slots :=
  match mapped with
  | .error message => { slots with failures := slots.failures.set index (some message) }
  | mapped =>
    if !isScalar mapped || containsCapability world mapped then
      { slots with
        failures := slots.failures.set index
          (some "KS3923: parallel worker returned a non-scalar value") }
    else { slots with results := slots.results.set index (some mapped) }

/-- What is returned when all goroutines have ended: the first failure, or the results. -/
def Slots.collect (slots : Slots) : Value := match slots.failures.findSome? id with
  | some message => .error message
  | none => .list (slots.results.map fun result => result.getD .unit)

/-- The goroutines of `ksParallelMap`, behind the guard of `ksEnter`. -/
def goroutines (worker : LeafWorker) (world : World) (list : List Value) : Work Slots where
  jobs := list.length
  limit := maxCallDepth
  commit index slots := match list[index]? with
    | some item => slots.put world index (worker.compiled item)
    | none => slots

/-- The slots before any goroutine has run. -/
def emptySlots (list : List Value) : Slots :=
  ⟨replicate list.length none, replicate list.length none⟩

/-- What `ksParallelMap` does up to its first goroutine. -/
inductive Launch where
  | answered (value : Value)
  | started (list : List Value) (workerCount : Nat)

/-- `ksParallelMap`, up to its first goroutine. -/
def ksParallelMap (world : World) (value transform maxWorkersValue : Value) : Launch :=
  match value, transform with
  | .list list, .function _ _ =>
    match maxWorkersValue with
    | .int maxWorkers =>
      if maxWorkers < 1 ∨ maxWorkers > 64 then
        .answered (.error "KS3920: parallel_map max_workers must be between 1 and 64")
      else if list.any fun item => !isScalar item || containsCapability world item then
        .answered (.error "KS3921: parallel_map input items must be share-safe scalars")
      else if list.length = 0 then .answered (.list [])
      else .started list (if maxWorkers.toNat > list.length then list.length else maxWorkers.toNat)
    | _ => .answered (.error "KS3920: parallel_map max_workers must be between 1 and 64")
  | .list _, _ => .answered (.error "KS3921: parallel_map expects a direct unary worker")
  | _, _ => .answered (.error "KS3921: parallel_map expects List<scalar>")

/-- Every schedule of the goroutines ends with this value: no call is refused by the guard, a
schedule that cannot go on has ended all goroutines, and no schedule goes on for ever. -/
structure EndsWith (work : Work Slots) (pool : Pool Slots) (value : Value) : Prop where
  guarded : ∀ schedule later, Pool.run work pool schedule = some later → later.refused = false
  joins : ∀ schedule later, Pool.run work pool schedule = some later → Pool.Settled work later →
    Pool.Joined later ∧ later.store.collect = value
  bounded : ∃ most, ∀ schedule later, Pool.run work pool schedule = some later →
    schedule.length ≤ most

/-- `ksParallelMap` called at a depth gives this value under every schedule. -/
def AlwaysGives (worker : LeafWorker) (world : World) (depth : Nat) (value : Value) : Launch → Prop
  | .answered given => given = value
  | .started list workerCount =>
    EndsWith (goroutines worker world list) (Pool.start depth workerCount (emptySlots list)) value

/-! ## What one item gives -/

/-- What becomes of a mapped value in both lanes: a failure, or a result. -/
def settled (world : World) (mapped : Value) : Except String Value := match mapped with
  | .error message => .error message
  | mapped =>
    if !isScalar mapped || containsCapability world mapped then
      .error "KS3923: parallel worker returned a non-scalar value"
    else .ok mapped

/-- The result of a list of outcomes: the first failure, or all results. -/
def gathered (results : List Value) : List (Except String Value) → Value
  | [] => .list results
  | .error message :: _ => .error message
  | .ok result :: outcomes => gathered (results ++ [result]) outcomes

/-- The result in the slot of an outcome. -/
def resultOf : Except String Value → Option Value
  | .ok result => some result
  | .error _ => none

/-- The failure in the slot of an outcome. -/
def failureOf : Except String Value → Option String
  | .ok _ => none
  | .error message => some message

theorem put_eq (world : World) (index : Nat) (mapped : Value) (slots : Slots) :
    slots.put world index mapped = match settled world mapped with
      | .ok result => { slots with results := slots.results.set index (some result) }
      | .error message => { slots with failures := slots.failures.set index (some message) } := by
  unfold Slots.put settled
  split
  · rfl
  · split <;> rfl

/-- Goroutines write to the slots of different indexes, or twice the same. -/
theorem commit_comm (worker : LeafWorker) (world : World) (list : List Value)
    (first second : Nat) (slots : Slots) :
    (goroutines worker world list).commit first ((goroutines worker world list).commit second slots) =
      (goroutines worker world list).commit second
        ((goroutines worker world list).commit first slots) := by
  by_cases same : first = second
  · rw [same]
  · simp only [goroutines]
    cases list[first]? with
    | none => rfl
    | some one =>
      cases list[second]? with
      | none => rfl
      | some other =>
        simp only [put_eq]
        cases settled world (worker.compiled one) <;>
          cases settled world (worker.compiled other) <;>
          simp only [List.set_comm _ _ same]

/-- Slots of which the first ones hold outcomes and the others are empty. -/
def slotsOf (outcomes : List (Except String Value)) (empty : Nat) : Slots :=
  ⟨outcomes.map resultOf ++ replicate empty none,
    outcomes.map failureOf ++ replicate empty none⟩

/-- The slot after the first ones. -/
theorem set_next {α β : Type} (f : α → Option β) (taken : List α) (empty : Nat) (later : Option β) :
    (taken.map f ++ none :: replicate empty none).set taken.length later =
      taken.map f ++ later :: replicate empty none := by
  rw [List.set_append_right _ _ (length_map f).le, length_map, Nat.sub_self, List.set_cons_zero]

theorem put_next (world : World) (mapped : Value) (outcomes : List (Except String Value))
    (empty : Nat) :
    (slotsOf outcomes (empty + 1)).put world outcomes.length mapped =
      slotsOf (outcomes ++ [settled world mapped]) empty := by
  rw [put_eq]
  cases settled world mapped <;>
    simp only [slotsOf, set_next, map_append, map_cons, map_nil, resultOf, failureOf,
      append_assoc, singleton_append, List.replicate_succ]

theorem committed_first (worker : LeafWorker) (world : World) (before after : List Value) :
    Pool.committed (goroutines worker world (before ++ after)) (emptySlots (before ++ after))
        (range before.length) =
      slotsOf (before.map fun item => settled world (worker.compiled item)) after.length := by
  induction before using reverseRecOn generalizing after with
  | nil => rfl
  | append_singleton before item ih =>
    have found : (before ++ item :: after)[before.length]? = some item := by
      rw [List.getElem?_append_right (Nat.le_refl _), Nat.sub_self, List.getElem?_cons_zero]
    have next := put_next world (worker.compiled item)
      (before.map fun item => settled world (worker.compiled item)) after.length
    rw [length_map] at next
    rw [length_append, length_singleton, List.range_succ, append_assoc,
      singleton_append, Pool.committed_snoc, ih (item :: after), map_append]
    simp only [goroutines, found]
    exact next

theorem committed_all (worker : LeafWorker) (world : World) (list : List Value) :
    Pool.committed (goroutines worker world list) (emptySlots list) (range list.length) =
      slotsOf (list.map fun item => settled world (worker.compiled item)) 0 := by
  have all := committed_first worker world list []
  rwa [append_nil] at all

theorem gathered_eq (results : List Value) (outcomes : List (Except String Value)) :
    gathered results outcomes = match (outcomes.map failureOf).findSome? id with
      | some message => .error message
      | none => .list (results ++ outcomes.map fun outcome => (resultOf outcome).getD .unit) := by
  induction outcomes generalizing results with
  | nil => rw [gathered, map_nil, map_nil, append_nil]; rfl
  | cons outcome outcomes ih =>
    cases outcome with
    | error message => rfl
    | ok result =>
      rw [gathered, ih, map_cons, map_cons, append_assoc]
      rfl

/-- What is collected from the slots is the first failure, or all results. -/
theorem collect_slotsOf (outcomes : List (Except String Value)) :
    (slotsOf outcomes 0).collect = gathered [] outcomes := by
  rw [gathered_eq, slotsOf, Slots.collect, List.replicate_zero, append_nil,
    List.replicate_zero, append_nil, map_map, nil_append]
  rfl

/-! ## The interpreter, item by item -/

variable {value : Value}

theorem containsCapability_scalar {world : World} (scalar : isScalar value = true) :
    containsCapability world value = false := by
  cases value <;> first | rfl | cases scalar

variable {items : List Value}

theorem scalars_safe (world : World) (scalars : ∀ item ∈ items, isScalar item = true) :
    items.any (fun item => !isScalar item || containsCapability world item) = false := by
  rw [List.any_eq_false]
  intro item member
  simp only [scalars item member, containsCapability_scalar (scalars item member), Bool.not_true,
    Bool.or_self, false_eq_true, not_false_eq_true]

/-- What the interpreter does with the value of one call. -/
def takeMapped (results : List Value) (_item mapped : Value) (world : World) : Taken (List Value) :=
  match settled world mapped with
  | .error message => .finish (.ok (.error message))
  | .ok result => .next (results ++ [result])

variable {maxWorkers : Int}

/-- The interpreter's loop on a list of scalars. -/
theorem parallelMap_scalars (world : World) (moduleKey name : String)
    (scalars : ∀ item ∈ items, isScalar item = true) (bounded : 1 ≤ maxWorkers ∧ maxWorkers ≤ 64) :
    parallelMap (.list items) (.function moduleKey name) (.int maxWorkers) world =
      forEach moduleKey name (fun _ item => [item]) takeMapped Value.list items [] world := by
  have safe := scalars_safe world scalars
  have take : (fun (results : List Value) (_ : Value) (mapped : Value) (world : World) =>
      match mapped with
      | .error message => Taken.finish (.ok (.error message))
      | mapped =>
        if !isScalar mapped || containsCapability world mapped then
          .finish (.ok (.error "KS3923: parallel worker returned a non-scalar value"))
        else .next (results ++ [mapped])) = takeMapped := by
    funext results item mapped world
    unfold takeMapped settled
    split
    · rfl
    · split <;> rfl
  unfold parallelMap
  simp only [bounded, and_self, not_true_eq_false, if_false, safe, false_eq_true]
  exact congrArg (fun take => forEach moduleKey name (fun _ item => [item]) take Value.list items []
    world) take

/-- The loop of the interpreter gathers the outcomes of the items. -/
theorem forEach_gathers (worker : LeafWorker) (depth : Nat) (moduleKey name : String)
    (world : World) (items results : List Value)
    (accepted : answeredBy (worker.call depth) (forEach moduleKey name (fun _ item => [item])
      takeMapped Value.list items results world) = .ok value) :
    value = gathered results (items.map fun item => settled world (worker.compiled item)) := by
  induction items generalizing results with
  | nil =>
    cases accepted
    rfl
  | cons item items ih =>
    rw [forEach, answeredBy] at accepted
    cases called : worker.call depth [item] with
    | error fault =>
      rw [called] at accepted
      cases accepted
    | ok mapped =>
      have same : worker.compiled item = mapped := by
        unfold LeafWorker.call at called
        simp only at called
        split at called
        · cases called
        · exact worker.agrees item mapped called
      rw [called] at accepted
      rw [map_cons, same]
      simp only [takeMapped] at accepted
      cases outcome : settled world mapped with
      | error message =>
        rw [outcome] at accepted
        cases accepted
        rfl
      | ok result =>
        rw [outcome] at accepted
        exact ih _ accepted

/-! ## Agreement -/

theorem ksParallelMap_scalars (world : World) (moduleKey name : String)
    (scalars : ∀ item ∈ items, isScalar item = true) (bounded : 1 ≤ maxWorkers ∧ maxWorkers ≤ 64) :
    ksParallelMap world (.list items) (.function moduleKey name) (.int maxWorkers) =
      if items.length = 0 then .answered (.list [])
      else .started items (min maxWorkers.toNat items.length) := by
  have safe := scalars_safe world scalars
  have least : (if maxWorkers.toNat > items.length then items.length else maxWorkers.toNat) =
      min maxWorkers.toNat items.length := by
    split <;> omega
  have fits : ¬ (maxWorkers < 1 ∨ maxWorkers > 64) := by omega
  simp only [ksParallelMap]
  rw [if_neg fits, safe, if_neg false_ne_true, least]

def square : LeafWorker where
  interpreted
    | .int i => .ok (.int (i * i))
    | item => .ok item
  compiled
    | .int i => .int (i * i)
    | item => item
  agrees item value computed := by
    cases item <;> cases computed <;> rfl

end Koschei.Go
