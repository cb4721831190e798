import Koschei.Lib.Dictionary
import Mathlib.Algebra.Order.BigOperators.Group.List
import Mathlib.Algebra.Order.Ring.Int
import Mathlib.Tactic.Abel

/-!
# Tables with a key

The rows of a table have keys, and no two rows have one key. A table carries this
as a field. A row is inserted when its key is not there yet; an update changes the
row of a key when the row has a property, and tells how many rows it changed; a
put replaces the row of a key or adds it, as a dictionary does. Numbers are bound
to statements as integers of 64 bits.
-/

namespace Koschei.Lib

/-- A number as it is bound to a statement: SQLite has integers of 64 bits. -/
def sqlInteger (value : Int) : Except String Int := if value < -2 ^ 63 ∨ 2 ^ 63 ≤ value then
    .error "Python int too large to convert to SQLite INTEGER"
  else .ok value

variable {value bound : Int}

theorem sqlInteger_eq_ok (passed : sqlInteger value = .ok bound) : bound = value := by
  unfold sqlInteger at passed
  split at passed
  · cases passed
  · cases passed
    rfl

theorem sqlInteger_lt (passed : sqlInteger value = .ok bound) : value < 2 ^ 63 := by
  unfold sqlInteger at passed
  split at passed
  · cases passed
  · omega

theorem sqlInteger_eq_error {fault : String} (stopped : sqlInteger value = .error fault) :
    fault = "Python int too large to convert to SQLite INTEGER" := by
  unfold sqlInteger at stopped
  split at stopped
  · cases stopped
    rfl
  · cases stopped

theorem sqlInteger_of_range (low : 0 ≤ value) (high : value < 2 ^ 63) :
    sqlInteger value = .ok value := by
  unfold sqlInteger
  rw [if_neg (by omega)]

/-- A table, its rows in the order of their insertion. -/
structure Table (K R : Type) where
  rows : List (K × R)
  distinct : (rows.map fst).Nodup

namespace Table

variable {K R : Type}

def empty : Table K R := ⟨[], nodup_nil⟩

variable {table after : Table K R} {key other : K} {row : R}

theorem distinct_snoc (absent : key ∉ table.rows.map fst) :
    ((table.rows ++ [(key, row)]).map fst).Nodup := by
  rw [map_append, nodup_append]
  refine ⟨table.distinct, nodup_singleton key, ?_⟩
  rintro other member last isLast rfl
  rw [mem_singleton.mp isLast] at member
  exact absent member

variable [DecidableEq K]

/-- The row of a key. -/
def find (table : Table K R) (key : K) : Option R := table.rows.lookup key

/-- `INSERT`: a key that is there already is refused. -/
def insert (table : Table K R) (key : K) (row : R) : Option (Table K R) :=
  if absent : key ∉ table.rows.map fst then
    some ⟨table.rows ++ [(key, row)], distinct_snoc absent⟩
  else none

/-- `UPDATE .. WHERE`: what becomes of a row. -/
def updateRow (key : K) (property : R → Bool) (change : R → R) (entry : K × R) : K × R :=
  if entry.1 = key ∧ property entry.2 then (entry.1, change entry.2) else entry

theorem keys_updateRow (key : K) (property : R → Bool) (change : R → R) (rows : List (K × R)) :
    (rows.map (updateRow key property change)).map fst = rows.map fst := by
  rw [map_map]
  apply map_congr_left
  intro entry _
  unfold updateRow
  rw [Function.comp_apply]
  split <;> rfl

/-- `UPDATE .. WHERE`, for the row of a key. -/
def update (table : Table K R) (key : K) (property : R → Bool) (change : R → R) : Table K R :=
  ⟨table.rows.map (updateRow key property change), by
    rw [keys_updateRow]
    exact table.distinct⟩

/-- The number of rows an update changes. -/
def rowcount (table : Table K R) (key : K) (property : R → Bool) : Nat :=
  table.rows.countP fun entry => decide (entry.1 = key) && property entry.2

/-- `dictionary[key] = row`. -/
def put (table : Table K R) (key : K) (row : R) : Table K R :=
  ⟨Dictionary.put table.rows key row, by
    rw [keys_put]
    split
    · exact table.distinct
    · rename_i absent
      have added : ((table.rows ++ [(key, row)]).map fst).Nodup := distinct_snoc absent
      rw [map_append] at added
      exact added⟩

/-! ## Keys -/

variable {rows entries : List (K × R)}

theorem lookup_eq_none_of_absent (absent : key ∉ rows.map fst) : rows.lookup key = none := by
  rw [lookup_eq_none_iff]
  intro entry member
  rw [bne_iff_ne]
  rintro rfl
  exact absent (mem_map_of_mem member)

theorem find_eq_none : table.find key = none ↔ key ∉ table.rows.map fst := by
  refine ⟨fun missing present => ?_, lookup_eq_none_of_absent⟩
  obtain ⟨entry, member, rfl⟩ := mem_map.mp present
  exact absurd (lookup_eq_none_iff.mp missing entry member) (by simp)

theorem mem_of_find (found : table.find key = some row) : (key, row) ∈ table.rows := by
  obtain ⟨before, after, split, -⟩ := lookup_eq_some_iff.mp found
  rw [split]
  exact mem_append_right _ mem_cons_self

theorem find_of_mem (member : (key, row) ∈ table.rows) : table.find key = some row := by
  cases found : table.find key with
  | none => exact absurd (mem_map_of_mem member) (find_eq_none.mp found)
  | some other =>
    have same := inj_on_of_nodup_map table.distinct member (mem_of_find found) rfl
    cases same
    rfl

theorem find_eq_some : table.find key = some row ↔ (key, row) ∈ table.rows :=
  ⟨mem_of_find, find_of_mem⟩

/-! ## Inserting, updating and putting -/

theorem insert_eq_some (inserted : table.insert key row = some after) :
    table.find key = none ∧ after.rows = table.rows ++ [(key, row)] := by
  unfold insert at inserted
  split at inserted
  · rename_i absent
    cases inserted
    exact ⟨find_eq_none.mpr absent, rfl⟩
  · cases inserted

theorem insert_of_absent (absent : table.find key = none) (row : R) :
    ∃ after, table.insert key row = some after := by
  unfold insert
  rw [dif_pos (find_eq_none.mp absent)]
  exact ⟨_, rfl⟩

theorem insert_eq_none : table.insert key row = none ↔ ∃ other, table.find key = some other := by
  cases found : table.find key with
  | none =>
    obtain ⟨after, inserted⟩ := insert_of_absent found row
    rw [inserted]
    simp
  | some other =>
    cases inserted : table.insert key row with
    | none => exact ⟨fun _ => ⟨other, rfl⟩, fun _ => rfl⟩
    | some after =>
      rw [(insert_eq_some inserted).1] at found
      cases found

theorem lookup_snoc (absent : rows.lookup key = none) :
    (rows ++ [(key, row)]).lookup other = if other = key then some row else rows.lookup other := by
  rw [lookup_append, lookup_cons, List.lookup_nil]
  by_cases same : other = key
  · rw [same, absent, beq_self_eq_true, if_pos rfl]
    rfl
  · have apart : (other == key) = false := by simpa using same
    rw [apart, if_neg same, Option.or_none]

theorem find_insert (inserted : table.insert key row = some after) :
    after.find other = if other = key then some row else table.find other := by
  obtain ⟨absent, rows⟩ := insert_eq_some inserted
  unfold find at absent ⊢
  rw [rows, lookup_snoc absent]

theorem lookup_updateRow (rows : List (K × R)) (key other : K) (property : R → Bool)
    (change : R → R) :
    (rows.map (updateRow key property change)).lookup other = (rows.lookup other).map fun row =>
        if other = key ∧ property row then change row else row := by
  induction rows with
  | nil => rfl
  | cons entry rows ih =>
    have keys : (updateRow key property change entry).1 = entry.1 := by
      unfold updateRow
      split <;> rfl
    rw [map_cons, lookup_cons, lookup_cons, keys]
    cases same : other == entry.1 with
    | false => exact ih
    | true =>
      rw [beq_iff_eq] at same
      subst same
      unfold updateRow
      dsimp only
      split
      · rename_i changed
        rw [map_some, if_pos changed]
      · rename_i kept
        rw [map_some, if_neg kept]

theorem find_update (table : Table K R) (key other : K) (property : R → Bool) (change : R → R) :
    (table.update key property change).find other = (table.find other).map fun row =>
        if other = key ∧ property row then change row else row :=
  lookup_updateRow table.rows key other property change

variable {property : R → Bool} {change : R → R}

theorem find_update_self (found : table.find key = some row) (holds : property row = true) :
    (table.update key property change).find key = some (change row) := by
  rw [find_update, found, map_some, if_pos ⟨rfl, holds⟩]

/-- An update leaves the rows of other keys. -/
theorem find_update_of_ne (apart : other ≠ key) :
    (table.update key property change).find other = table.find other := by
  rw [find_update]
  cases table.find other with
  | none => rfl
  | some row => rw [map_some, if_neg fun same => apart same.1]

theorem rowcount_eq_one (found : table.find key = some row) (holds : property row = true) :
    table.rowcount key property = 1 := by
  obtain ⟨before, after, split, -⟩ := lookup_eq_some_iff.mp found
  have distinct := table.distinct
  unfold rowcount
  rw [split] at distinct ⊢
  rw [map_append, map_cons] at distinct
  obtain ⟨-, rest, disjoint⟩ := nodup_append.mp distinct
  have none_before : before.countP (fun entry => decide (entry.1 = key) && property entry.2) = 0 := by
    rw [List.countP_eq_zero]
    rintro entry member matched
    rw [and_eq_true, decide_eq_true_eq] at matched
    exact disjoint entry.1 (mem_map_of_mem member) key mem_cons_self matched.1
  have none_after : after.countP (fun entry => decide (entry.1 = key) && property entry.2) = 0 := by
    rw [List.countP_eq_zero]
    rintro entry member matched
    rw [and_eq_true, decide_eq_true_eq] at matched
    have again : entry.1 ∈ after.map fst := mem_map_of_mem member
    rw [matched.1] at again
    exact (nodup_cons.mp rest).1 again
  rw [List.countP_append, List.countP_cons, none_before, none_after]
  simp [holds]

theorem find_of_rowcount
    (changes : table.rowcount key property = 1) : ∃ row, table.find key = some row ∧
      property row = true := by
  unfold rowcount at changes
  obtain ⟨entry, member, matched⟩ := List.countP_pos_iff.mp (Nat.lt_of_lt_of_eq Nat.one_pos changes.symm)
  rw [and_eq_true, decide_eq_true_eq] at matched
  obtain ⟨rfl, holds⟩ := matched
  exact ⟨entry.2, find_of_mem member, holds⟩

theorem lookup_put (rows : List (K × R)) (key other : K) (row : R) :
    (Dictionary.put rows key row).lookup other =
      if other = key then some row else rows.lookup other := by
  unfold Dictionary.put
  split
  · rename_i present
    have updates : (rows.map fun entry => if entry.1 = key then (key, row) else entry) =
        rows.map (updateRow key (fun _ => true) fun _ => row) := by
      apply map_congr_left
      intro entry _
      unfold updateRow
      by_cases here : entry.1 = key
      · rw [if_pos here, if_pos ⟨here, rfl⟩, here]
      · rw [if_neg here, if_neg fun both => here both.1]
    rw [updates, lookup_updateRow]
    by_cases same : other = key
    · obtain ⟨entry, member, isKey⟩ := mem_map.mp present
      have known : (rows.lookup other).isSome := by
        rw [List.lookup_isSome_iff]
        exact ⟨entry, member, by rw [same, isKey, beq_self_eq_true]⟩
      obtain ⟨old, found⟩ := isSome_iff_exists.mp known
      rw [found, map_some, if_pos ⟨same, rfl⟩, if_pos same]
    · rw [if_neg same]
      cases rows.lookup other with
      | none => rfl
      | some old => rw [map_some, if_neg fun both => same both.1]
  · rename_i absent
    exact lookup_snoc (lookup_eq_none_of_absent absent)

theorem lookup_ofEntries (entries : List (K × R)) (key : K) :
    (ofEntries entries).lookup key = lastItem key entries := by
  unfold lastItem
  induction entries using reverseRecOn with
  | nil => rfl
  | append_singleton entries entry ih =>
    rw [ofEntries_snoc, lookup_put, reverse_append, List.reverse_singleton,
      singleton_append, lookup_cons, ih]
    by_cases same : key = entry.1
    · rw [if_pos same, same, beq_self_eq_true]
    · have apart : (key == entry.1) = false := by simpa using same
      rw [if_neg same, apart]

theorem mem_of_lastItem (found : lastItem key entries = some row) : (key, row) ∈ entries := by
  obtain ⟨before, after, split, -⟩ := lookup_eq_some_iff.mp found
  rw [← mem_reverse, split]
  exact mem_append_right _ mem_cons_self

theorem lastItem_eq_none : lastItem key entries = none ↔ key ∉ entries.map fst := by
  unfold lastItem
  rw [lookup_eq_none_iff]
  constructor
  · rintro none member
    obtain ⟨entry, isEntry, rfl⟩ := mem_map.mp member
    exact absurd (none entry (mem_reverse.mpr isEntry)) (by simp)
  · intro absent entry member
    rw [bne_iff_ne]
    rintro rfl
    exact absent (mem_map_of_mem (mem_reverse.mp member))

theorem lastItem_of_mem (distinct : (entries.map fst).Nodup) (member : (key, row) ∈ entries) :
    lastItem key entries = some row := by
  cases found : lastItem key entries with
  | none => exact absurd (mem_map_of_mem member) (lastItem_eq_none.mp found)
  | some other =>
    have same := inj_on_of_nodup_map distinct member (mem_of_lastItem found) rfl
    cases same
    rfl

theorem find_put (table : Table K R) (key other : K) (row : R) :
    (table.put key row).find other = if other = key then some row else table.find other :=
  lookup_put table.rows key other row

/-! ## Totals -/

/-- The sum of a measure of the rows. -/
def total {M : Type} [AddCommMonoid M] (table : Table K R) (measure : R → M) : M :=
  (table.rows.map fun entry => measure entry.2).sum

section Totals

variable {M : Type} [AddCommMonoid M] {measure : R → M} {table : Table K R}

theorem total_insert {after : Table K R} {key : K} {row : R}
    (inserted : table.insert key row = some after) :
    after.total measure = table.total measure + measure row := by
  unfold total
  rw [(insert_eq_some inserted).2, map_append, sum_append, map_singleton, List.sum_singleton]

theorem total_update (measure : R → M) (change : R → R) {key : K}
    {property : R → Bool} {row : R} (found : table.find key = some row)
    (holds : property row = true) :
    (table.update key property change).total measure + measure row =
      table.total measure + measure (change row) := by
  obtain ⟨before, after, split, -⟩ := lookup_eq_some_iff.mp found
  have distinct := table.distinct
  rw [split, map_append, map_cons] at distinct
  obtain ⟨-, rest, disjoint⟩ := nodup_append.mp distinct
  have kept : ∀ entries : List (K × R), key ∉ entries.map fst →
      entries.map (updateRow key property change) = entries := by
    intro entries absent
    refine (map_congr_left fun entry member => ?_).trans (map_id entries)
    have differs : entry.1 ≠ key := by
      rintro rfl
      exact absent (mem_map_of_mem member)
    exact if_neg fun same => differs same.1
  have keptBefore := kept before fun member => disjoint key member key mem_cons_self rfl
  have keptAfter := kept after (nodup_cons.mp rest).1
  have changed : updateRow key property change (key, row) = (key, change row) := if_pos ⟨rfl, holds⟩
  unfold total update
  dsimp only
  rw [split, map_append, map_cons, keptBefore, keptAfter, changed]
  simp only [map_append, map_cons, sum_append, sum_cons]
  abel

theorem total_eq_zero
    (none : ∀ key row, table.find key = some row → measure row = 0) : table.total measure = 0 := by
  unfold total
  refine List.sum_eq_zero fun value member => ?_
  obtain ⟨entry, isRow, rfl⟩ := mem_map.mp member
  exact none entry.1 entry.2 (find_of_mem isRow)

end Totals

/-- A measure that is not negative on any row has a total that is not negative. -/
theorem total_nonneg {measure : R → Int}
    (nonneg : ∀ key row, table.find key = some row → 0 ≤ measure row) : 0 ≤ table.total measure := by
  unfold total
  refine List.sum_nonneg fun value member => ?_
  obtain ⟨entry, isRow, rfl⟩ := mem_map.mp member
  exact nonneg entry.1 entry.2 (find_of_mem isRow)

/-! ## The rows with a property -/

theorem filter_insert (property : R → Bool)
    (inserted : table.insert key row = some after) (apart : property row = false) :
    after.rows.filter (fun entry => property entry.2) =
      table.rows.filter fun entry => property entry.2 := by
  rw [(insert_eq_some inserted).2, filter_append]
  simp [apart]

/-- An update of rows without a property that leaves them without it leaves the rows with it. -/
theorem filter_update (property : R → Bool) {updated : R → Bool}
    (apart : ∀ row, updated row = true → property row = false ∧ property (change row) = false) :
    (table.update key updated change).rows.filter (fun entry => property entry.2) =
      table.rows.filter fun entry => property entry.2 := by
  unfold update
  dsimp only
  induction table.rows with
  | nil => rfl
  | cons entry rows ih =>
    rw [map_cons, filter_cons, filter_cons, ih]
    unfold updateRow
    split
    · rename_i here
      obtain ⟨without, still⟩ := apart entry.2 here.2
      dsimp only
      rw [without, still]
      rfl
    · rfl

end Table

export Table (find_insert find_put find_update find_update_of_ne find_update_self insert_eq_some
  insert_of_absent lookup_ofEntries total_insert total_update)

end Koschei.Lib
