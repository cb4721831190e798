import Koschei.Lib.Table

/-!
# Groups of items with one key

Items are put into groups by their key, one after the other. The group of a key
is the items with that key, in their order; only keys of items have groups.
-/

namespace Koschei.Lib

variable {A K : Type} [DecidableEq K]

/-- `groups.setdefault(key, []).append(item)`. -/
def addToGroup (groups : Table K (List A)) (key : K) (item : A) : Table K (List A) :=
  groups.put key ((groups.find key).getD [] ++ [item])

def groupBy (key : A → K) (items : List A) : Table K (List A) :=
  items.foldl (fun groups item => addToGroup groups (key item) item) .empty

variable {key : A → K} {items : List A}

theorem find_groupBy (k : K) : (groupBy key items).find k =
    if k ∈ items.map key then some (items.filter fun item => decide (key item = k)) else none := by
  induction items using reverseRecOn with
  | nil => rfl
  | append_singleton items item ih =>
    have step : groupBy key (items ++ [item]) = addToGroup (groupBy key items) (key item) item := by
      unfold groupBy
      rw [foldl_append]
      rfl
    rw [step, addToGroup, find_put, map_append, filter_append]
    by_cases here : k = key item
    · subst here
      have last : key item ∈ items.map key ++ [item].map key :=
        mem_append_right _ (mem_singleton_self _)
      rw [if_pos rfl, if_pos last, ih]
      split
      · simp
      · rename_i absent
        have empty : items.filter (fun other => decide (key other = key item)) = [] := by
          rw [filter_eq_nil_iff]
          intro other member same
          exact absent (mem_map.mpr ⟨other, member, of_decide_eq_true same⟩)
        rw [empty]
        simp
    · have apart : ¬ key item = k := fun same => here same.symm
      rw [if_neg here, ih]
      simp [apart, here]

theorem mem_groupBy {k : K} {members : List A} : (k, members) ∈ (groupBy key items).rows ↔
    k ∈ items.map key ∧ members = items.filter fun item => decide (key item = k) := by
  rw [← Table.find_eq_some, find_groupBy]
  split
  · rename_i known
    rw [some.injEq]
    exact ⟨fun same => ⟨known, same.symm⟩, fun both => both.2.symm⟩
  · rename_i unknown
    constructor
    · intro impossible
      cases impossible
    · rintro ⟨known, -⟩
      exact absurd known unknown

theorem dedup_length_le_one {values : List K} :
    ¬ 1 < values.dedup.length ↔ ∀ a ∈ values, ∀ b ∈ values, a = b := by
  constructor
  · intro short a first b second
    rw [← mem_dedup] at first second
    obtain ⟨i, inside, rfl⟩ := mem_iff_getElem.mp first
    obtain ⟨j, inside', rfl⟩ := mem_iff_getElem.mp second
    have same : i = j := by omega
    subst same
    rfl
  · intro same long
    have distinct := List.nodup_dedup values
    have first := mem_dedup.mp (getElem_mem (Nat.lt_trans Nat.zero_lt_one long))
    have second := mem_dedup.mp (getElem_mem long)
    exact absurd ((List.Nodup.getElem_inj_iff distinct).mp (same _ first _ second)) Nat.zero_ne_one

end Koschei.Lib
