import Koschei.Lib.Names
import Mathlib.Data.List.Infix

/-!
# Chains of records

A record names the digest of the record before it, and the first one names the
genesis. The head of a chain is the digest of its last record, or the genesis
when there is none. When the digest of a record settles the record, the head of a
chain settles the chain.
-/

namespace Koschei.Lib.Chains

variable {R D : Type} (previous digest : R → D)

/-- The head of a chain that goes on from a digest. -/
def headFrom : D → List R → D
  | start, [] => start
  | _, record :: records => headFrom (digest record) records

/-- The records name one another, and the first one names the start. -/
def Linked : D → List R → Prop
  | _, [] => True
  | start, record :: records => previous record = start ∧ Linked (digest record) records

/-- The records are numbered from the number on. -/
def Numbered (number : R → Int) : Int → List R → Prop
  | _, [] => True
  | first, record :: records => number record = first ∧ Numbered number (first + 1) records

variable {previous digest}

theorem headFrom_snoc (start : D) (records : List R) (record : R) :
    headFrom digest start (records ++ [record]) = digest record := by
  induction records generalizing start with
  | nil => rfl
  | cons first records ih => exact ih (digest first)

theorem linked_snoc (start : D) (records : List R) (record : R) :
    Linked previous digest start (records ++ [record]) ↔
      Linked previous digest start records ∧ previous record = headFrom digest start records := by
  induction records generalizing start with
  | nil => exact ⟨fun linked => ⟨trivial, linked.1⟩, fun both => ⟨both.2, trivial⟩⟩
  | cons first records ih =>
    rw [cons_append, Linked, Linked, ih, headFrom, and_assoc]

theorem numbered_snoc {number : R → Int} (first : Int) (records : List R) (record : R) :
    Numbered number first (records ++ [record]) ↔
      Numbered number first records ∧ number record = first + records.length := by
  induction records generalizing first with
  | nil =>
    rw [nil_append, Numbered, Numbered, length_nil]
    simp [Numbered]
  | cons earlier records ih =>
    rw [cons_append, Numbered, Numbered, ih, length_cons, and_assoc]
    have moved : first + 1 + (records.length : Int) = first + ((records.length + 1 : Nat) : Int) := by
      omega
    rw [moved]

theorem headFrom_cases (start : D) (records : List R) :
    (records = [] ∧ headFrom digest start records = start) ∨
      ∃ record ∈ records, headFrom digest start records = digest record := by
  rcases List.eq_nil_or_concat records with rfl | ⟨before, last, rfl⟩
  · exact .inl ⟨rfl, rfl⟩
  · rw [List.concat_eq_append]
    exact .inr ⟨last, mem_append_right _ mem_cons_self, headFrom_snoc start before last⟩

/-- Chains with one head are the same, when no two records, one of each, have one digest, and no
record has the genesis as its digest. -/
theorem eq_of_headFrom {genesis : D} {records records' : List R}
    (linked : Linked previous digest genesis records)
    (linked' : Linked previous digest genesis records')
    (settles : ∀ record ∈ records, ∀ record' ∈ records', digest record = digest record' →
      record = record')
    (first : ∀ record ∈ records, digest record ≠ genesis)
    (first' : ∀ record ∈ records', digest record ≠ genesis)
    (heads : headFrom digest genesis records = headFrom digest genesis records') :
    records = records' := by
  induction records using reverseRecOn generalizing records' with
  | nil =>
    have cases : (records' = [] ∧ headFrom digest genesis records' = genesis) ∨
        ∃ record ∈ records', headFrom digest genesis records' = digest record :=
      headFrom_cases genesis records'
    rcases cases with ⟨none, -⟩ | ⟨last, member, head⟩
    · exact none.symm
    · exact absurd (head.symm.trans heads.symm) (first' last member)
  | append_singleton before last ih =>
    rw [headFrom_snoc] at heads
    rcases List.eq_nil_or_concat records' with rfl | ⟨before', last', rfl⟩
    · exact absurd heads (first last (mem_append_right _ mem_cons_self))
    · rw [List.concat_eq_append] at linked' settles first' heads ⊢
      rw [headFrom_snoc] at heads
      have same : last = last' := settles last (mem_append_right _ mem_cons_self) last'
        (mem_append_right _ mem_cons_self) heads
      subst same
      obtain ⟨earlier, named⟩ := (linked_snoc genesis before last).mp linked
      obtain ⟨earlier', named'⟩ := (linked_snoc genesis before' last).mp linked'
      have rest : before = before' := ih earlier earlier'
        (fun record member record' member' => settles record (mem_append_left _ member) record'
          (mem_append_left _ member'))
        ((forall_mem_append.mp first).1)
        (fun record member => first' record (mem_append_left _ member))
        (named.symm.trans named')
      rw [rest]

end Koschei.Lib.Chains
