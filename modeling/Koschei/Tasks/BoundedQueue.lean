import Koschei.Lib.RingBuffer
import Koschei.Lib.Runs

/-!
# Bounded queues

A `BoundedQueueValue` is a ring under a lock: its operations run one after the other, and
whatever their order, they answer as a list of at most as many items as the capacity
would. The ring of the Go runtime answers the calls of the language as the ring of the
interpreter does, for the items that its own checks let in.
-/

namespace Koschei.Tasks

open Lib

variable {V : Type}

/-! ## The queue of the interpreter -/

/-- `MIN_QUEUE_CAPACITY`. -/
def minQueueCapacity : Int := 1

/-- `MAX_QUEUE_CAPACITY`. -/
def maxQueueCapacity : Int := 65536

/-- `BoundedQueueValue`: the slots that are not in use hold `None`. -/
abbrev BoundedQueueValue (V : Type) := RingBuffer V

namespace BoundedQueueValue

/-- `BoundedQueueValue.__init__`. -/
def init (none : V) (capacity : Int) : Except String (BoundedQueueValue V) :=
  if inside : minQueueCapacity ≤ capacity ∧ capacity ≤ maxQueueCapacity then
    .ok (RingBuffer.blank none capacity.toNat (by
      unfold minQueueCapacity at inside
      omega))
  else .error "KS3901: queue capacity must be between 1 and 65536"

def length (queue : BoundedQueueValue V) : Nat := queue.count

def isFull (queue : BoundedQueueValue V) : Bool := queue.count = queue.capacity

def isEmpty (queue : BoundedQueueValue V) : Bool := queue.count = 0

/-- `try_send`. -/
def trySend (queue : BoundedQueueValue V) (value : V) : Bool × BoundedQueueValue V :=
  if queue.count = queue.capacity then (false, queue)
  else (true, queue.put value)

/-- `try_recv`. -/
def tryRecv (none : V) (queue : BoundedQueueValue V) : (Bool × V) × BoundedQueueValue V :=
  if queue.count = 0 then ((false, none), queue)
  else ((true, queue.read queue.head queue.headInside), queue.drop none)

/-- `snapshot_items`. -/
def snapshotItems (queue : BoundedQueueValue V) : List V :=
  (range queue.count).map queue.behind

end BoundedQueueValue

/-- The operations of a queue. -/
inductive Operation (V : Type) where
  | trySend (value : V)
  | tryRecv
  | length
  | isFull
  | isEmpty
  | snapshotItems
  deriving DecidableEq

/-- What an operation returns. -/
inductive Observed (V : Type) where
  | flag (value : Bool)
  | received (found : Bool) (value : V)
  | number (value : Nat)
  | items (values : List V)
  deriving DecidableEq

/-- One operation on a queue, under its lock. -/
def queueStep (none : V) (queue : BoundedQueueValue V) :
    Operation V → Observed V × BoundedQueueValue V
  | .trySend value => (.flag (queue.trySend value).1, (queue.trySend value).2)
  | .tryRecv =>
    (.received (queue.tryRecv none).1.1 (queue.tryRecv none).1.2, (queue.tryRecv none).2)
  | .length => (.number queue.length, queue)
  | .isFull => (.flag queue.isFull, queue)
  | .isEmpty => (.flag queue.isEmpty, queue)
  | .snapshotItems => (.items queue.snapshotItems, queue)

/-! ## A list as a queue -/

/-- One operation on a list of at most as many items as the capacity. -/
def fifoStep (none : V) (capacity : Nat) (items : List V) : Operation V → Observed V × List V
  | .trySend value =>
    if items.length = capacity then (.flag false, items) else (.flag true, items ++ [value])
  | .tryRecv =>
    match items with
    | [] => (.received false none, [])
    | item :: items => (.received true item, items)
  | .length => (.number items.length, items)
  | .isFull => (.flag (items.length = capacity), items)
  | .isEmpty => (.flag (items.length = 0), items)
  | .snapshotItems => (.items items, items)

def Represents (none : V) (capacity : Nat) (queue : BoundedQueueValue V) (items : List V) : Prop :=
  queue.capacity = capacity ∧ queue.Shows none items

section Refinement

variable {none : V} {capacity : Nat} {queue : BoundedQueueValue V} {items : List V}

section

variable (represents : Represents none capacity queue items)

include represents

theorem trySend_represents (value : V) :
    (queue.trySend value).1 = decide (items.length ≠ capacity) ∧
      Represents none capacity (queue.trySend value).2
        (if items.length = capacity then items else items ++ [value]) := by
  obtain ⟨rfl, shows⟩ := represents
  unfold BoundedQueueValue.trySend
  rw [shows.counted]
  by_cases full : items.length = queue.capacity
  · rw [if_pos full, if_pos full]
    exact ⟨(decide_eq_false (not_not.mpr full)).symm, rfl, shows⟩
  · rw [if_neg full, if_neg full]
    exact ⟨(decide_eq_true full).symm, rfl, shows.put (Nat.lt_of_le_of_ne shows.fits full) value⟩

theorem tryRecv_represents :
    (queue.tryRecv none).1 = (items.head?.elim (false, none) fun item => (true, item)) ∧
      Represents none capacity (queue.tryRecv none).2 items.tail := by
  obtain ⟨rfl, shows⟩ := represents
  unfold BoundedQueueValue.tryRecv
  rw [shows.counted]
  cases items with
  | nil => exact ⟨rfl, rfl, shows⟩
  | cons item items =>
    obtain ⟨first, dropped⟩ := shows.drop
    rw [if_neg (show (item :: items).length ≠ 0 from Nat.succ_ne_zero _), first]
    exact ⟨rfl, rfl, dropped⟩

/-- An operation answers as it does on the list, and leaves a queue that shows the list left. -/
theorem queueStep_represents (operation : Operation V) :
    (queueStep none queue operation).1 = (fifoStep none capacity items operation).1 ∧
      Represents none capacity (queueStep none queue operation).2
        (fifoStep none capacity items operation).2 := by
  have counted := represents.2.counted
  cases operation with
  | trySend value =>
    obtain ⟨sent, after⟩ := trySend_represents represents value
    unfold queueStep fifoStep
    dsimp only
    rw [sent]
    by_cases full : items.length = capacity
    · rw [if_pos full] at after ⊢
      exact ⟨congrArg _ (decide_eq_false (not_not.mpr full)), after⟩
    · rw [if_neg full] at after ⊢
      exact ⟨congrArg _ (decide_eq_true full), after⟩
  | tryRecv =>
    obtain ⟨received, after⟩ := tryRecv_represents represents
    unfold queueStep
    dsimp only
    rw [received]
    cases items <;> exact ⟨rfl, after⟩
  | length => exact ⟨congrArg Observed.number counted, represents⟩
  | isFull =>
    refine ⟨?_, represents⟩
    unfold queueStep BoundedQueueValue.isFull
    dsimp only
    rw [counted, represents.1]
    rfl
  | isEmpty =>
    refine ⟨?_, represents⟩
    unfold queueStep BoundedQueueValue.isEmpty
    dsimp only
    rw [counted]
    rfl
  | snapshotItems => exact ⟨congrArg Observed.items represents.2.snapshot, represents⟩

end

theorem init_represents {size : Int} (inside : minQueueCapacity ≤ size ∧ size ≤ maxQueueCapacity) :
    ∃ queue, BoundedQueueValue.init none size = .ok queue ∧ Represents none size.toNat queue [] :=
  ⟨_, dif_pos inside, rfl, RingBuffer.blank_shows _ _⟩

end Refinement

/-! ## The queue of the Go runtime -/

/-- What the Go runtime does with values. -/
structure GoValues (V : Type) where
  ksErrorf : String → V
  ofBool : Bool → V
  ofInt : Nat → V
  nil : V
  ksContainsCapability : V → Bool
  ksQueueTypeTag : V → String

/-- `KsBoundedQueue`. -/
structure KsBoundedQueue (V : Type) where
  ring : RingBuffer V
  itemTag : String

section Go

variable (go : GoValues V)

/-- `ksBoundedQueue`. -/
def ksBoundedQueue (capacity : Int) (witness : V) : V ⊕ KsBoundedQueue V :=
  if inside : ¬ (capacity < minQueueCapacity ∨ capacity > maxQueueCapacity) then
    if go.ksContainsCapability witness then
      .inl (go.ksErrorf "KS3904: capability values cannot be bounded-queue item types")
    else
      .inr ⟨RingBuffer.blank go.nil capacity.toNat (by
        unfold minQueueCapacity at inside
        omega), go.ksQueueTypeTag witness⟩
  else .inl (go.ksErrorf "KS3901: bounded_queue capacity must be between 1 and 65536")

/-- `ksQueueTrySend`. -/
def ksQueueTrySend (queue : KsBoundedQueue V) (value : V) : V × KsBoundedQueue V :=
  if go.ksContainsCapability value then
    (go.ksErrorf "KS3904: capability values cannot enter a bounded queue", queue)
  else if go.ksQueueTypeTag value ≠ queue.itemTag then
    (go.ksErrorf "KS3904: bounded-queue runtime item type mismatch", queue)
  else if queue.ring.count = queue.ring.capacity then (go.ofBool false, queue)
  else (go.ofBool true, { queue with ring := queue.ring.put value })

/-- `ksQueueTryRecv`. -/
def ksQueueTryRecv (queue : KsBoundedQueue V) : V × KsBoundedQueue V :=
  if queue.ring.count = 0 then (go.ksErrorf "KS3903: bounded queue is empty", queue)
  else
    (queue.ring.read queue.ring.head queue.ring.headInside,
      { queue with ring := queue.ring.drop go.nil })

/-- `ksQueueLen`. -/
def ksQueueLen (queue : KsBoundedQueue V) : V := go.ofInt queue.ring.count

/-- `ksQueueCapacity`. -/
def ksQueueCapacity (queue : KsBoundedQueue V) : V := go.ofInt queue.ring.capacity

/-- The calls of the language on a queue. -/
inductive QueueCall (V : Type) where
  | queueTrySend (value : V)
  | queueTryRecv
  | queueLen
  | queueCapacity
  deriving DecidableEq

/-- A call of the language in the Go runtime. -/
def goStep (queue : KsBoundedQueue V) : QueueCall V → V × KsBoundedQueue V
  | .queueTrySend value => ksQueueTrySend go queue value
  | .queueTryRecv => ksQueueTryRecv go queue
  | .queueLen => (ksQueueLen go queue, queue)
  | .queueCapacity => (ksQueueCapacity go queue, queue)

/-- A call of the language in the interpreter, `_runtime_invoke` behind its checks of the values. -/
def runtimeInvoke (none : V) (queue : BoundedQueueValue V) : QueueCall V → V × BoundedQueueValue V
  | .queueTrySend value => (go.ofBool (queue.trySend value).1, (queue.trySend value).2)
  | .queueTryRecv =>
    (if (queue.tryRecv none).1.1 then (queue.tryRecv none).1.2
      else go.ksErrorf "KS3903: bounded queue is empty", (queue.tryRecv none).2)
  | .queueLen => (go.ofInt queue.length, queue)
  | .queueCapacity => (go.ofInt queue.capacity, queue)

/-- What the Go runtime lets into a queue. -/
def Accepts (itemTag : String) (value : V) : Prop :=
  go.ksContainsCapability value = false ∧ go.ksQueueTypeTag value = itemTag

variable {go}

def fifoInvoke (go : GoValues V) (capacity : Nat) (items : List V) : QueueCall V → V × List V
  | .queueTrySend value =>
    if items.length = capacity then (go.ofBool false, items)
    else (go.ofBool true, items ++ [value])
  | .queueTryRecv =>
    match items with
    | [] => (go.ksErrorf "KS3903: bounded queue is empty", [])
    | item :: items => (item, items)
  | .queueLen => (go.ofInt items.length, items)
  | .queueCapacity => (go.ofInt capacity, items)

theorem runtimeInvoke_represents {none : V} {capacity : Nat} {queue : BoundedQueueValue V}
    {items : List V} (represents : Represents none capacity queue items) (call : QueueCall V) :
    (runtimeInvoke go none queue call).1 = (fifoInvoke go capacity items call).1 ∧
      Represents none capacity (runtimeInvoke go none queue call).2
        (fifoInvoke go capacity items call).2 := by
  cases call with
  | queueTrySend value =>
    obtain ⟨sent, after⟩ := trySend_represents represents value
    unfold runtimeInvoke fifoInvoke
    dsimp only
    rw [sent]
    by_cases full : items.length = capacity
    · rw [if_pos full] at after ⊢
      exact ⟨congrArg go.ofBool (decide_eq_false (not_not.mpr full)), after⟩
    · rw [if_neg full] at after ⊢
      exact ⟨congrArg go.ofBool (decide_eq_true full), after⟩
  | queueTryRecv =>
    obtain ⟨received, after⟩ := tryRecv_represents represents
    unfold runtimeInvoke
    dsimp only
    rw [received]
    cases items <;> exact ⟨rfl, after⟩
  | queueLen => exact ⟨congrArg go.ofInt represents.2.counted, represents⟩
  | queueCapacity => exact ⟨congrArg go.ofInt represents.1, represents⟩

/-- For what it lets in, the Go runtime does what the interpreter would do with its ring. -/
theorem goStep_eq {queue : KsBoundedQueue V} {call : QueueCall V}
    (accepted : ∀ value, call = .queueTrySend value → Accepts go queue.itemTag value) :
    goStep go queue call = ((runtimeInvoke go go.nil queue.ring call).1,
      { queue with ring := (runtimeInvoke go go.nil queue.ring call).2 }) := by
  cases call with
  | queueTrySend value =>
    obtain ⟨plain, same⟩ := accepted value rfl
    unfold goStep ksQueueTrySend runtimeInvoke BoundedQueueValue.trySend
    dsimp only
    rw [plain, if_neg false_ne_true, if_neg (not_not.mpr same)]
    split <;> rfl
  | queueTryRecv =>
    unfold goStep ksQueueTryRecv runtimeInvoke BoundedQueueValue.tryRecv
    dsimp only
    split <;> rfl
  | queueLen => rfl
  | queueCapacity => rfl

theorem ksBoundedQueue_represents {size : Int} {witness : V}
    (inside : minQueueCapacity ≤ size ∧ size ≤ maxQueueCapacity)
    (plain : go.ksContainsCapability witness = false) :
    ∃ queue, ksBoundedQueue go size witness = .inr queue ∧
      queue.itemTag = go.ksQueueTypeTag witness ∧ Represents go.nil size.toNat queue.ring [] := by
  have small : ¬ (size < minQueueCapacity ∨ size > maxQueueCapacity) := by omega
  unfold ksBoundedQueue
  rw [dif_pos small, plain, if_neg false_ne_true]
  exact ⟨_, rfl, rfl, rfl, RingBuffer.blank_shows _ _⟩

end Go

/-! ## Every series of operations -/

/-- **A bounded queue is a FIFO.** For every capacity a queue can have, every series of operations is
answered as by a list of at most as many items, and the slots that are not occupied hold `None`; the
Go runtime answers every series of calls with items that it accepts as the interpreter does. -/
theorem bounded_queue_is_fifo (none : V) {capacity : Int}
    (inside : minQueueCapacity ≤ capacity ∧ capacity ≤ maxQueueCapacity) :
    ∃ queue, BoundedQueueValue.init none capacity = .ok queue ∧
      (∀ operations, answers (queueStep none) queue operations =
          answers (fifoStep none capacity.toNat) [] operations ∧
        (finalState (fifoStep none capacity.toNat) [] operations).length ≤ capacity.toNat ∧
        ∀ slot inside, ¬ (finalState (queueStep none) queue operations).Occupied slot →
          (finalState (queueStep none) queue operations).read slot inside = none) ∧
      ∀ (go : GoValues V) (witness : V), go.ksContainsCapability witness = false →
        ∃ goQueue, ksBoundedQueue go capacity witness = .inr goQueue ∧
          ∀ calls, (∀ value, .queueTrySend value ∈ calls →
              Accepts go (go.ksQueueTypeTag witness) value) →
            answers (goStep go) goQueue calls = answers (runtimeInvoke go none) queue calls := by
  obtain ⟨queue, created, represents⟩ := @init_represents V none capacity inside
  refine ⟨queue, created, fun operations => ?_, fun go witness plain => ?_⟩
  · obtain ⟨same, ends⟩ := @answers_eq_of_simulation _ _ _ _ _ (queueStep none)
      (fifoStep none capacity.toNat) id (Represents none capacity.toNat) operations
      (fun operation _ queue items represents => queueStep_represents represents operation) _ _ represents
    rw [map_id] at same
    refine ⟨same, ?_, fun slot inside isFree => ends.2.free inside isFree⟩
    have fits := ends.2.fits
    rwa [ends.1] at fits
  · obtain ⟨goQueue, goCreated, tagged, goRepresents⟩ := @ksBoundedQueue_represents V go _ _ inside plain
    refine ⟨goQueue, goCreated, fun calls accepted => ?_⟩
    obtain ⟨python, -⟩ := @answers_eq_of_simulation _ _ _ _ _ (runtimeInvoke go none)
      (fifoInvoke go capacity.toNat) id (Represents none capacity.toNat) calls
      (fun call _ queue items represents => runtimeInvoke_represents represents call) _ _ represents
    obtain ⟨compiled, -⟩ := @answers_eq_of_simulation _ _ _ _ _ (goStep go)
      (fifoInvoke go capacity.toNat) id
      (fun queue items => queue.itemTag = go.ksQueueTypeTag witness ∧
        Represents go.nil capacity.toNat queue.ring items) calls
      (fun call among queue items related => by
        obtain ⟨isTag, represents⟩ := related
        rw [goStep_eq fun value isSend => isTag ▸ accepted value (isSend ▸ among)]
        obtain ⟨same, after⟩ := runtimeInvoke_represents represents call
        exact ⟨same, isTag, after⟩) _ _ ⟨tagged, goRepresents⟩
    rw [compiled, python]

/-- A queue of one slot that is filled, emptied and filled again. -/
theorem bounded_queue_is_fifo_one : ∃ queue, BoundedQueueValue.init 0 1 = .ok queue ∧
      answers (queueStep 0) queue [.trySend 7, .trySend 8, .tryRecv, .trySend 9, .snapshotItems] =
        [.flag true, .flag false, .received true 7, .flag true, .items [9]] := by
  obtain ⟨queue, created, same, -⟩ := bounded_queue_is_fifo 0 (by decide : minQueueCapacity ≤ 1 ∧ _)
  exact ⟨queue, created, (same _).1.trans rfl⟩

end Koschei.Tasks
