import Koschei.Lib.Names
import Mathlib.Data.List.GetD
import Mathlib.Data.Nat.ModEq

/-!
# Ring buffers

A ring has a buffer of a fixed capacity and the slots where the next item is taken and
put. Its occupied slots start at the head and wrap around; read from the head on they are
a list, and the other slots are blank. Putting an item appends it to the list, and taking
one removes the first.
-/

namespace Koschei.Lib

variable {α : Type}

/-- A ring: its buffer has the capacity, and both ends are slots of it. -/
structure RingBuffer (α : Type) where
  capacity : Nat
  buffer : List α
  head : Nat
  tail : Nat
  count : Nat
  allocated : buffer.length = capacity
  headInside : head < capacity
  tailInside : tail < capacity

namespace RingBuffer

/-- A ring without items. -/
def blank (fill : α) (capacity : Nat) (positive : 0 < capacity) : RingBuffer α where
  capacity := capacity
  buffer := replicate capacity fill
  head := 0
  tail := 0
  count := 0
  allocated := length_replicate
  headInside := positive
  tailInside := positive

theorem wrapped (ring : RingBuffer α) (n : Nat) : n % ring.capacity < ring.capacity :=
  Nat.mod_lt n (Nat.zero_lt_of_lt ring.headInside)

/-- The item in a slot. -/
def read (ring : RingBuffer α) (slot : Nat) (inside : slot < ring.capacity) : α :=
  ring.buffer.get ⟨slot, by rw [ring.allocated]; exact inside⟩

/-- The item some slots behind the head. -/
def behind (ring : RingBuffer α) (offset : Nat) : α :=
  ring.read ((ring.head + offset) % ring.capacity) (ring.wrapped _)

def put (ring : RingBuffer α) (item : α) : RingBuffer α where
  capacity := ring.capacity
  buffer := ring.buffer.set ring.tail item
  head := ring.head
  tail := (ring.tail + 1) % ring.capacity
  count := ring.count + 1
  allocated := by rw [List.length_set, ring.allocated]
  headInside := ring.headInside
  tailInside := ring.wrapped _

/-- The slot of the head is filled again, and the head goes on. -/
def drop (ring : RingBuffer α) (fill : α) : RingBuffer α where
  capacity := ring.capacity
  buffer := ring.buffer.set ring.head fill
  head := (ring.head + 1) % ring.capacity
  tail := ring.tail
  count := ring.count - 1
  allocated := by rw [List.length_set, ring.allocated]
  headInside := ring.wrapped _
  tailInside := ring.tailInside

/-- A ring shows a list: its slots from the head on have the items, and the others are filled. -/
structure Shows (fill : α) (ring : RingBuffer α) (items : List α) : Prop where
  counted : ring.count = items.length
  fits : items.length ≤ ring.capacity
  tail : ring.tail = (ring.head + ring.count) % ring.capacity
  slots : ∀ offset < ring.capacity, ring.behind offset = items.getD offset fill

def Occupied (ring : RingBuffer α) (slot : Nat) : Prop :=
  ∃ offset < ring.count, slot = (ring.head + offset) % ring.capacity

/-! ## Slots -/

/-- Offsets below the capacity are at different slots. -/
theorem offset_unique {capacity head first second : Nat} (isFirst : first < capacity)
    (isSecond : second < capacity) (same : (head + first) % capacity = (head + second) % capacity) :
    first = second := by
  have cancelled : first ≡ second [MOD capacity] := Nat.ModEq.add_left_cancel' head same
  unfold Nat.ModEq at cancelled
  rwa [Nat.mod_eq_of_lt isFirst, Nat.mod_eq_of_lt isSecond] at cancelled

variable {slot : Nat}

theorem exists_offset (ring : RingBuffer α) (inside : slot < ring.capacity) :
    ∃ offset < ring.capacity, slot = (ring.head + offset) % ring.capacity := by
  have isHead := ring.headInside
  by_cases behind : ring.head ≤ slot
  · refine ⟨slot - ring.head, by omega, ?_⟩
    rw [show ring.head + (slot - ring.head) = slot by omega, Nat.mod_eq_of_lt inside]
  · refine ⟨slot + ring.capacity - ring.head, by omega, ?_⟩
    rw [show ring.head + (slot + ring.capacity - ring.head) = slot + ring.capacity by omega,
      Nat.add_mod_right, Nat.mod_eq_of_lt inside]

theorem read_congr {ring : RingBuffer α} {other : Nat} (same : slot = other) {inside : slot < ring.capacity} :
    ring.read slot inside = ring.read other (same ▸ inside) := by
  subst same
  rfl

theorem read_put (ring : RingBuffer α) (item : α) (inside : slot < ring.capacity) :
    (ring.put item).read slot inside = if ring.tail = slot then item else ring.read slot inside :=
  List.getElem_set _

theorem read_drop (ring : RingBuffer α) (fill : α) (inside : slot < ring.capacity) :
    (ring.drop fill).read slot inside = if ring.head = slot then fill else ring.read slot inside :=
  List.getElem_set _

section Shows

variable {fill : α} {ring : RingBuffer α} {items : List α}

theorem blank_shows (fill : α) {capacity : Nat} (positive : 0 < capacity) :
    Shows fill (blank fill capacity positive) [] where
  counted := rfl
  fits := Nat.zero_le _
  tail := (Nat.mod_eq_of_lt positive).symm
  slots _ _ := List.getElem_replicate _

theorem Shows.put (shows : Shows fill ring items) (space : items.length < ring.capacity) (item : α) :
    Shows fill (ring.put item) (items ++ [item]) where
  counted := by
    rw [length_append, length_singleton, ← shows.counted]
    rfl
  fits := by
    rw [length_append, length_singleton]
    exact space
  tail := by
    show (ring.tail + 1) % ring.capacity = (ring.head + (ring.count + 1)) % ring.capacity
    rw [shows.tail, Nat.mod_add_mod, Nat.add_assoc]
  slots offset inside := by
    have isTail : ring.tail = (ring.head + offset) % ring.capacity ↔ offset = items.length := by
      rw [shows.tail, shows.counted]
      exact ⟨fun same => (offset_unique space inside same).symm, fun same => by rw [same]⟩
    show (ring.put item).read ((ring.head + offset) % ring.capacity) (ring.wrapped _) = _
    rw [read_put]
    by_cases last : offset = items.length
    · rw [if_pos (isTail.mpr last), last, List.getD_append_right _ _ _ _ (Nat.le_refl _), Nat.sub_self]
      rfl
    · rw [if_neg fun same => last (isTail.mp same)]
      refine (shows.slots offset inside).trans ?_
      rcases Nat.lt_or_gt_of_ne last with before | beyond
      · rw [List.getD_append _ _ _ _ before]
      · rw [List.getD_eq_default _ _ (Nat.le_of_lt beyond), List.getD_eq_default]
        rw [length_append, length_singleton]
        exact beyond

theorem Shows.drop {item : α} (shows : Shows fill ring (item :: items)) :
    ring.read ring.head ring.headInside = item ∧ Shows fill (ring.drop fill) items := by
  have space : items.length < ring.capacity := shows.fits
  have first := shows.slots 0 (Nat.zero_lt_of_lt ring.headInside)
  have isHead : (ring.head + 0) % ring.capacity = ring.head := Nat.mod_eq_of_lt ring.headInside
  refine ⟨(read_congr isHead.symm).trans first, ⟨?_, space.le, ?_, fun offset inside => ?_⟩⟩
  · show ring.count - 1 = items.length
    rw [shows.counted, length_cons, Nat.add_sub_cancel]
  · show ring.tail = ((ring.head + 1) % ring.capacity + (ring.count - 1)) % ring.capacity
    rw [shows.tail, shows.counted, length_cons, Nat.add_sub_cancel, Nat.mod_add_mod,
      Nat.add_right_comm, Nat.add_assoc]
  · show (ring.drop fill).read (((ring.head + 1) % ring.capacity + offset) % ring.capacity)
      (ring.wrapped _) = _
    have wraps : ((ring.head + 1) % ring.capacity + offset) % ring.capacity =
        (ring.head + (offset + 1)) % ring.capacity := by
      rw [Nat.mod_add_mod, Nat.add_right_comm, Nat.add_assoc]
    rw [read_drop]
    by_cases last : offset + 1 = ring.capacity
    · -- The slot behind all others is the one that was dropped.
      rw [if_pos (by rw [wraps, last, Nat.add_mod_right, Nat.mod_eq_of_lt ring.headInside]),
        List.getD_eq_default _ _ (by omega)]
    · have small : offset + 1 < ring.capacity := Nat.lt_of_le_of_ne inside last
      rw [if_neg]
      · exact (read_congr wraps).trans (shows.slots (offset + 1) small)
      · intro same
        have zero := offset_unique small (Nat.zero_lt_of_lt ring.headInside)
          (wraps.symm.trans (same.symm.trans isHead.symm))
        cases zero

theorem Shows.snapshot (shows : Shows fill ring items) :
    (range ring.count).map ring.behind = items := by
  refine List.ext_getElem (by rw [length_map, List.length_range, shows.counted])
    fun offset _ inside => ?_
  rw [getElem_map, List.getElem_range, shows.slots offset (inside.trans_le shows.fits),
    List.getD_eq_getElem _ _ inside]

theorem Shows.free (shows : Shows fill ring items) (inside : slot < ring.capacity)
    (isFree : ¬ ring.Occupied slot) : ring.read slot inside = fill := by
  obtain ⟨offset, small, rfl⟩ := ring.exists_offset inside
  refine (shows.slots offset small).trans (List.getD_eq_default _ _ ?_)
  rw [← shows.counted]
  exact Nat.le_of_not_lt fun among => isFree ⟨offset, among, rfl⟩

end Shows

end RingBuffer

end Koschei.Lib
