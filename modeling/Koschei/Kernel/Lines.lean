import Koschei.Kernel.Domains
import Koschei.Lib.Trimming

/-!
# Canonical sources

A canonical source is the text of its lines, each of them ended by one newline. What
`_canonical_source` and `_canonical_lines` check about a source they check about its
lines, one by one, except for the size of the whole. So a source stays canonical
when lines are replaced by canonical lines that are not longer.
-/

namespace Koschei.Kernel

open Lib

/-- `"\n".join(lines) + "\n"`. -/
def textOf (lines : List String) : String := join '\n' lines ++ "\n"

theorem toList_textOf (lines : List String) :
    (textOf lines).toList = ['\n'].intercalate (lines.map toList) ++ ['\n'] := by
  unfold textOf join
  rw [toList_append, toList_ofList]
  rfl

theorem mem_intercalate {α : Type} {separator c : α} {parts : List (List α)}
    (inside : c ∈ [separator].intercalate parts) : c = separator ∨ ∃ part ∈ parts, c ∈ part := by
  induction parts with
  | nil => cases inside
  | cons part parts ih =>
    cases parts with
    | nil =>
      rw [intercalate_singleton] at inside
      exact .inr ⟨part, mem_cons_self, inside⟩
    | cons next parts =>
      rw [intercalate_cons_cons, mem_append, mem_append, mem_singleton] at inside
      rcases inside with (inside | rfl) | inside
      · exact .inr ⟨part, mem_cons_self, inside⟩
      · exact .inl rfl
      · exact (ih inside).imp_right fun ⟨other, isPart, member⟩ =>
          ⟨other, mem_cons_of_mem _ isPart, member⟩

theorem mem_intercalate_of_mem {α : Type} {separator c : α} {parts : List (List α)} {part : List α}
    (isPart : part ∈ parts) (inside : c ∈ part) : c ∈ [separator].intercalate parts := by
  induction parts with
  | nil => cases isPart
  | cons first parts ih =>
    cases parts with
    | nil =>
      rw [mem_singleton] at isPart
      rw [intercalate_singleton]
      exact isPart ▸ inside
    | cons next parts =>
      rw [intercalate_cons_cons, mem_append, mem_append]
      rcases mem_cons.mp isPart with rfl | isPart
      · exact .inl (.inl inside)
      · exact .inr (ih isPart)

variable {lines : List String} {c : Char}

theorem mem_textOf : c ∈ (textOf lines).toList ↔ c = '\n' ∨ ∃ line ∈ lines, c ∈ line.toList := by
  rw [toList_textOf, mem_append, mem_singleton]
  constructor
  · rintro (inside | rfl)
    · refine (mem_intercalate inside).imp_right fun ⟨part, isPart, member⟩ => ?_
      obtain ⟨line, isLine, rfl⟩ := mem_map.mp isPart
      exact ⟨line, isLine, member⟩
    · exact .inl rfl
  · rintro (rfl | ⟨line, isLine, inside⟩)
    · exact .inr rfl
    · exact .inl (mem_intercalate_of_mem (mem_map_of_mem isLine) inside)

theorem join_split (separator : Char) (text : String) : join separator (split separator text) = text := by
  unfold join split
  rw [map_map]
  have same : (toList ∘ ofList : List Char → List Char) = id :=
    funext fun _ => toList_ofList
  rw [same, map_id, List.intercalate_splitOn, ofList_toList]

theorem sourceLines_textOf (some : lines ≠ [])
    (whole : ∀ line ∈ lines, '\n' ∉ line.toList) : sourceLines (textOf lines) = lines := by
  unfold sourceLines
  rw [toList_textOf, List.dropLast_concat]
  exact split_join some whole

variable {source line text : String}

theorem textOf_sourceLines (ended : ['\n'] <:+ source.toList) :
    textOf (sourceLines source) = source := by
  obtain ⟨before, isSource⟩ := ended
  unfold textOf sourceLines
  rw [join_split, ← isSource, List.dropLast_concat, ← toList_inj, toList_append,
    toList_ofList, ← isSource]
  rfl

theorem not_blank_end (whole : ∀ line ∈ lines, '\n' ∉ line.toList)
    (visible : "" ∉ lines) : ¬ ['\n', '\n'] <:+ (textOf lines).toList := by
  rw [toList_textOf]
  rintro ⟨before, same⟩
  have same : before ++ ['\n'] ++ ['\n'] = ['\n'].intercalate (lines.map toList) ++ ['\n'] := by
    rw [← same, append_assoc]
    rfl
  have body := List.append_cancel_right same
  have parts : lines.map toList = (before ++ ['\n']).splitOn '\n' ∨ lines = [] := by
    by_cases none : lines = []
    · exact .inr none
    · refine .inl ?_
      rw [body, List.splitOn_intercalate]
      · intro part isPart
        obtain ⟨line, isLine, rfl⟩ := mem_map.mp isPart
        exact whole line isLine
      · exact fun empty => none (map_eq_nil_iff.mp empty)
  rcases parts with parts | rfl
  · have blank : [] ∈ (before ++ ['\n']).splitOn '\n' := by
      rw [List.splitOn_append_cons_self]
      exact mem_append_right _ mem_cons_self
    rw [← parts] at blank
    obtain ⟨line, isLine, isBlank⟩ := mem_map.mp blank
    exact visible ((@String.toList_inj line "").mp isBlank ▸ isLine)
  · cases before <;> cases body

theorem textOf_cons (some : lines ≠ []) :
    textOf (line :: lines) = line ++ "\n" ++ textOf lines := by
  cases lines with
  | nil => exact absurd rfl some
  | cons next lines =>
    rw [← toList_inj, toList_textOf, toList_append, toList_append,
      toList_textOf, map_cons, map_cons, intercalate_cons_cons, append_assoc]
    rfl

theorem textOf_singleton (line : String) : textOf [line] = line ++ "\n" ++ "" := by
  unfold textOf join
  rw [map_singleton, intercalate_singleton, ofList_toList, String.append_empty]

theorem byteLength_append (first second : String) :
    byteLength (first ++ second) = byteLength first + byteLength second :=
  String.utf8ByteSize_append

theorem byteLength_textOf (some : lines ≠ []) :
    byteLength (textOf lines) = (lines.map fun line => byteLength line + 1).sum := by
  induction lines with
  | nil => exact absurd rfl some
  | cons line lines ih =>
    cases lines with
    | nil =>
      rw [textOf_singleton, byteLength_append, byteLength_append]
      rfl
    | cons next lines =>
      rw [textOf_cons (cons_ne_nil _ _), byteLength_append, byteLength_append,
        ih (cons_ne_nil _ _), map_cons, sum_cons]
      rfl

theorem not_mem_of_sourceLines (inside : line ∈ sourceLines source) : '\n' ∉ line.toList :=
  not_mem_of_split inside

theorem sourceLines_ne_nil (source : String) : sourceLines source ≠ [] := split_ne_nil _ _

theorem mem_of_split {separator : Char} {text part : String} (isPart : part ∈ split separator text)
    (inside : c ∈ part.toList) : c ∈ text.toList := by
  rw [← join_split separator text]
  unfold join
  rw [toList_ofList]
  exact mem_intercalate_of_mem (mem_map_of_mem isPart) inside

theorem single_of_split (tokens : "" ∉ split ' ' line) : ¬ Inside "  " line := by
  rintro ⟨before, after, same⟩
  have blank : [] ∈ line.toList.splitOn ' ' := by
    have isLine : line.toList = before ++ ' ' :: ([] ++ ' ' :: after) := by
      rw [← same, append_assoc]
      rfl
    rw [isLine, List.splitOn_append_cons_self, List.splitOn_append_cons_self]
    exact mem_append_right _ (mem_append_left _ mem_cons_self)
  exact tokens (mem_map.mpr ⟨[], blank, rfl⟩)

/-- A text that begins and ends with visible characters has nothing to strip. -/
theorem stripped_eq (first : ∀ c, text.toList.head? = some c → isSpace c = false)
    (last : ∀ c, text.toList.getLast? = some c → isSpace c = false) : stripped text = text := by
  unfold stripped strip
  rw [dropWhile_of_head first, dropWhile_of_head, reverse_reverse, ofList_toList]
  intro c isLast
  rw [List.head?_reverse] at isLast
  exact last c isLast

/-! ## The lines of the kernel -/

/-- A canonical line of the kernel. -/
structure KernelLine (line : String) : Prop where
  visible : line ≠ ""
  ascii : ∀ c ∈ line.toList, c.toNat < 128
  plain : ∀ c ∈ line.toList, c ≠ '\x00' ∧ c ≠ '\r' ∧ c ≠ '\t' ∧ c ≠ '\n'
  tight : line = stripped line
  single : ¬ Inside "  " line

theorem checkLines_eq_ok {number : Nat} :
    checkLines number lines = .ok () ↔ ∀ line ∈ lines, line = stripped line ∧ ¬ Inside "  " line := by
  induction lines generalizing number with
  | nil => simp [checkLines]
  | cons line lines ih =>
    rw [checkLines, forall_mem_cons, ← @ih (number + 1)]
    simp only [bind_unit_iff, raiseIf_iff, not_or, not_not, join_split, and_true]

theorem not_mem_textOf (differs : c ≠ '\n')
    (each : ∀ line ∈ lines, c ∉ line.toList) : c ∉ (textOf lines).toList := by
  intro inside
  rcases mem_textOf.mp inside with same | ⟨line, isLine, member⟩
  · exact differs same
  · exact each line isLine member

theorem mem_of_sourceLines (ended : ['\n'] <:+ source.toList)
    (isLine : line ∈ sourceLines source) (inside : c ∈ line.toList) : c ∈ source.toList := by
  rw [← textOf_sourceLines ended]
  exact mem_textOf.mpr (.inr ⟨line, isLine, inside⟩)

theorem canonicalSource_eq_ok :
    canonicalSource source = .ok lines ↔ source = textOf lines ∧ lines ≠ [] ∧
      (∀ line ∈ lines, KernelLine line) ∧
      (lines.map fun line => byteLength line + 1).sum ≤ maxSourceBytes := by
  simp only [canonicalSource, bind_unit_iff, raiseIf_iff, checkLines_eq_ok, ok.injEq, not_or,
    not_not, Nat.not_lt, not_eq_false]
  constructor
  · rintro ⟨nul, ascii, small, returns, ended, visible, checked, rfl⟩
    have isText := textOf_sourceLines ended.1
    refine ⟨isText.symm, sourceLines_ne_nil _, fun line isLine => ?_, ?_⟩
    · have chars : ∀ c ∈ line.toList, c ∈ source.toList := fun c =>
        mem_of_sourceLines ended.1 isLine
      refine ⟨fun blank => visible (blank ▸ isLine), fun c inside => ?_,
        fun c inside => ⟨?_, ?_, ?_, ?_⟩, (checked line isLine).1, (checked line isLine).2⟩
      · exact of_decide_eq_true (all_eq_true.mp ascii c (chars c inside))
      · exact fun same => nul (same ▸ chars c inside)
      · exact fun same => returns.1 (same ▸ chars c inside)
      · exact fun same => returns.2 (same ▸ chars c inside)
      · exact fun same => not_mem_of_sourceLines isLine (same ▸ inside)
    · rw [← byteLength_textOf (sourceLines_ne_nil _), isText]
      exact small
  · rintro ⟨rfl, some, each, small⟩
    have whole : ∀ line ∈ lines, '\n' ∉ line.toList := fun line isLine inside =>
      ((each line isLine).plain _ inside).2.2.2 rfl
    have visible : "" ∉ lines := fun isLine => (each "" isLine).visible rfl
    rw [sourceLines_textOf some whole, byteLength_textOf some]
    refine ⟨not_mem_textOf (by decide) fun line isLine inside =>
        ((each line isLine).plain _ inside).1 rfl, ?_, small,
      ⟨not_mem_textOf (by decide) fun line isLine inside =>
          ((each line isLine).plain _ inside).2.1 rfl,
        not_mem_textOf (by decide) fun line isLine inside =>
          ((each line isLine).plain _ inside).2.2.1 rfl⟩,
      ⟨⟨_, (toList_textOf lines).symm⟩, not_blank_end whole visible⟩, visible,
      fun line isLine => ⟨(each line isLine).tight, (each line isLine).single⟩, rfl⟩
    refine all_eq_true.mpr fun c inside => decide_eq_true ?_
    rcases mem_textOf.mp inside with rfl | ⟨line, isLine, member⟩
    · decide
    · exact (each line isLine).ascii c member

/-! ## The lines of value graphs -/

/-- What NFC does to ASCII and at newlines: ASCII is canonical, and a newline composes with nothing,
so that a text is canonical when its parts before and after a newline are. -/
structure Host.Normalizes (host : Host) : Prop where
  ascii : ∀ text, (∀ c ∈ text.toList, c.toNat < 128) → host.normalize text = text
  newline : ∀ before after, host.normalize (before ++ "\n" ++ after) = before ++ "\n" ++ after ↔
    host.normalize before = before ∧ host.normalize after = after

/-- A canonical line of a value graph. -/
structure ValueLine (host : Host) (line : String) : Prop where
  visible : line ≠ ""
  straight : ∀ c ∈ line.toList, c ∉ bidiControls
  plain : ∀ c ∈ line.toList, c ≠ '\x00' ∧ c ≠ '\r' ∧ c ≠ '\t' ∧ c ≠ '\n'
  normal : host.normalize line = line
  tight : line = stripped line
  single : ¬ Inside "  " line
  printed : ∀ c ∈ line.toList, ¬ (c.toNat < 32 ∨ 127 ≤ c.toNat ∧ c.toNat ≤ 159)

theorem checkClauses_eq_ok {number : Nat} :
    checkClauses number lines = .ok () ↔ ∀ line ∈ lines, line = stripped line ∧ ¬ Inside "  " line ∧
      ∀ c ∈ line.toList, ¬ (c.toNat < 32 ∨ 127 ≤ c.toNat ∧ c.toNat ≤ 159) := by
  induction lines generalizing number with
  | nil => simp [checkClauses]
  | cons line lines ih =>
    rw [checkClauses, forall_mem_cons, ← @ih (number + 1)]
    simp only [bind_unit_iff, raiseIf_iff, not_or, not_not, and_assoc]
    simp

theorem Host.Normalizes.textOf_iff {host : Host} (normalizes : host.Normalizes)
    (some : lines ≠ []) : host.normalize (textOf lines) = textOf lines ↔
      ∀ line ∈ lines, host.normalize line = line := by
  induction lines with
  | nil => exact absurd rfl some
  | cons line lines ih =>
    cases lines with
    | nil =>
      have empty : host.normalize "" = "" := normalizes.ascii "" fun c inside => by cases inside
      rw [textOf_singleton, normalizes.newline]
      simp [empty]
    | cons next lines =>
      rw [textOf_cons (cons_ne_nil _ _), normalizes.newline, ih (cons_ne_nil _ _)]
      exact (@List.forall_mem_cons _ (fun line => host.normalize line = line) line (next :: lines)).symm

theorem canonicalLines_eq_ok {host : Host} (normalizes : host.Normalizes) :
    canonicalLines host source = .ok lines ↔ source = textOf lines ∧ lines ≠ [] ∧
      (∀ line ∈ lines, ValueLine host line) ∧
      (lines.map fun line => byteLength line + 1).sum ≤ maxSourceBytes := by
  simp only [canonicalLines, bind_unit_iff, raiseIf_iff, checkClauses_eq_ok, ok.injEq, not_or,
    not_not, Nat.not_lt, any_eq_true, decide_eq_true_eq, not_exists, not_and, ne_eq]
  constructor
  · rintro ⟨straight, nul, normal, small, returns, ended, visible, checked, rfl⟩
    have isText := textOf_sourceLines ended.1
    refine ⟨isText.symm, sourceLines_ne_nil _, fun line isLine => ?_, ?_⟩
    · have chars : ∀ c ∈ line.toList, c ∈ source.toList := fun c =>
        mem_of_sourceLines ended.1 isLine
      have fine := checked line isLine
      refine ⟨fun blank => visible (blank ▸ isLine), fun c inside => straight c (chars c inside),
        fun c inside => ⟨?_, ?_, ?_, ?_⟩, ?_, fine.1, fine.2.1,
        by simpa using fine.2.2⟩
      · exact fun same => nul (same ▸ chars c inside)
      · exact fun same => returns.1 (same ▸ chars c inside)
      · exact fun same => returns.2 (same ▸ chars c inside)
      · exact fun same => not_mem_of_sourceLines isLine (same ▸ inside)
      · rw [← isText] at normal
        exact (normalizes.textOf_iff (sourceLines_ne_nil _)).mp normal.symm line isLine
    · rw [← byteLength_textOf (sourceLines_ne_nil _), isText]
      exact small
  · rintro ⟨rfl, some, each, small⟩
    have whole : ∀ line ∈ lines, '\n' ∉ line.toList := fun line isLine inside =>
      ((each line isLine).plain _ inside).2.2.2 rfl
    have visible : "" ∉ lines := fun isLine => (each "" isLine).visible rfl
    rw [sourceLines_textOf some whole, byteLength_textOf some]
    refine ⟨fun c inside control => ?_, not_mem_textOf (by decide) fun line isLine inside =>
        ((each line isLine).plain _ inside).1 rfl,
      ((normalizes.textOf_iff some).mpr fun line isLine => (each line isLine).normal).symm, small,
      ⟨not_mem_textOf (by decide) fun line isLine inside =>
          ((each line isLine).plain _ inside).2.1 rfl,
        not_mem_textOf (by decide) fun line isLine inside =>
          ((each line isLine).plain _ inside).2.2.1 rfl⟩,
      ⟨⟨_, (toList_textOf lines).symm⟩, not_blank_end whole visible⟩, visible, fun line isLine =>
        ⟨(each line isLine).tight, (each line isLine).single,
          by simpa using (each line isLine).printed⟩, rfl⟩
    rcases mem_textOf.mp inside with rfl | ⟨line, isLine, member⟩
    · exact absurd control (by decide)
    · exact (each line isLine).straight c member control

end Koschei.Kernel
