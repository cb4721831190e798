import Koschei.Kernel.Conduits

/-!
# Open graphs

A source with conduits is read as an open graph: a graph whose literals are slots or
values. Nothing is put in the place of a slot to read it. The source that the
frontend reads has the number 0 in the place of each slot. Its lines are canonical
when those of the source are, and it is read as the open graph with 0 filled in, so
reading does not depend on the number.
-/

namespace Koschei.Kernel

open Lib

variable {V : Type}

/-! ## Open graphs -/

/-- A slot as it is spelled: a canonical number of at most five digits. -/
structure Spells (raw : String) (slot : Nat) : Prop where
  number : isNumber raw = true
  canonical : ¬ (1 < raw.length ∧ ['0'] <+: raw.toList)
  short : raw.length ≤ 5
  range : decimal raw ≤ maxRelationSlot
  isSlot : decimal raw = slot

/-- A clause with its literals replaced. -/
def Grammar.Clause.map {L : Type} (fill : L → V) : Grammar.Clause L → Grammar.Clause V
  | .witness name term => .witness name (term.map fill)
  | .resolve name => .resolve name

/-- What a line of a source with conduits says. Some names may be closed to conduits. -/
inductive OpenReads (grammar : Grammar V) (fits : String → Prop) (line : String) :
    Grammar.Clause (Nat ⊕ V) → Prop
  | conduit {identity raw name : String} {slot number : Nat}
      (tokens : split ' ' line = ["witness", identity, "conduit", raw])
      (named : grammar.name identity number = .ok name) (fit : fits identity)
      (spelled : Spells raw slot) : OpenReads grammar fits line (.witness name ⟨none, [.literal (.inl slot)]⟩)
  | plain {clause : Grammar.Clause V} (closed : "conduit" ∉ split ' ' line)
      (reads : grammar.Reads line clause) : OpenReads grammar fits line (clause.map Sum.inr)

def slotOf (witness : Witness (Nat ⊕ V)) : Option (Nat × String) := match witness.term with
  | ⟨none, [.literal (.inl slot)]⟩ => some (slot, witness.name)
  | _ => none

def Graph.conduits (graph : Graph (Nat ⊕ V)) : List (Nat × String) := graph.witnesses.filterMap slotOf

/-- The lines of a source are those of an open graph. -/
structure OpenGraph (grammar : Grammar V) (fits : String → Prop) (texts : OrderTexts)
    (lines : List String) (graph : Graph (Nat ⊕ V)) : Prop where
  read : ∃ clauses, Forall₂ (OpenReads grammar fits) lines clauses ∧
    graph.witnesses = Grammar.witnessesOf 1 clauses ∧
    Grammar.resolvesOf 1 clauses = [(graph.resolve, graph.resolveLine)]
  distinct : (graph.witnesses.map Witness.name).Nodup
  few : graph.witnesses.length ≤ maxWitnesses
  some : graph.witnesses ≠ []
  ordered : ∃ order, orderOf texts graph = .ok order

/-- A literal with the values of the slots. -/
def fill (values : Nat → V) : Nat ⊕ V → V := Sum.elim values id

theorem Term.map_inr_map_fill (term : Term V) (values : Nat → V) :
    (term.map Sum.inr).map (fill values) = term := by
  obtain ⟨operation, atoms⟩ := term
  unfold Term.map
  rw [map_map]
  have same : (Atom.map (fill values) ∘ Atom.map Sum.inr : Atom V → Atom V) = id := by
    funext atom
    cases atom <;> rfl
  rw [same, map_id]

theorem map_inr_map_fill (values : Nat → V) (clause : Grammar.Clause V) :
    (clause.map Sum.inr).map (fill values) = clause := by
  cases clause with
  | witness name term => exact congrArg (Grammar.Clause.witness name) (term.map_inr_map_fill values)
  | resolve name => rfl

/-! ## Reading with a number in the place of the slots -/

/-- A character of names, numbers and the space between them. -/
def isWord (c : Char) : Bool := ('a' ≤ c && c ≤ 'z') || c.isDigit || c == ' '

/-- A grammar that reads a number in the place of a slot as a value. -/
structure Placeholder (grammar : Grammar V) (zero : V) : Prop where
  uniform : grammar.Uniform
  zero : ∀ number, grammar.term ["0"] number = .ok ⟨none, [.literal zero]⟩
  named : ∀ {token name : String} {number : Nat}, grammar.name token number = .ok name →
    name = token ∧ isName token = true
  symbols : ∀ symbol ∈ grammar.symbols, ∃ c ∈ symbol.toList, isWord c = false
  part : ∀ identity line, grammar.checkedPart ["witness", identity, "0"] line = line

theorem exists_not_word {symbols : List String}
    (each : (symbols.all fun symbol => symbol.toList.any fun c => !isWord c) = true) :
    ∀ symbol ∈ symbols, ∃ c ∈ symbol.toList, isWord c = false := by
  intro symbol inside
  obtain ⟨c, isChar, other⟩ := any_eq_true.mp (all_eq_true.mp each symbol inside)
  exact ⟨c, isChar, by simpa using other⟩

theorem isWord_of_isName {token : String} (name : isName token = true) :
    ∀ c ∈ token.toList, isWord c = true := by
  intro c inside
  unfold isName at name
  cases chars : token.toList with
  | nil =>
    rw [chars] at inside
    cases inside
  | cons first others =>
    rw [chars] at name inside
    simp only [and_eq_true, all_eq_true, or_eq_true] at name
    unfold isWord
    simp only [or_eq_true, and_eq_true]
    rcases mem_cons.mp inside with rfl | inside
    · exact .inl (.inl name.1.1)
    · exact .inl (name.1.2 c inside)

section Reading

variable {grammar : Grammar V} {zero : V} {fits : String → Prop} {identity : String}

/-- The line that stands for a conduit. -/
theorem split_replaced (free : ' ' ∉ identity.toList) :
    split ' ' ("witness " ++ identity ++ " 0") = ["witness", identity, "0"] := by
  have isJoin : "witness " ++ identity ++ " 0" = join ' ' ["witness", identity, "0"] := by
    unfold join
    rw [← toList_inj, toList_append, toList_append, toList_ofList,
      map_cons, map_cons, map_singleton, intercalate_cons_cons,
      intercalate_cons_cons, intercalate_singleton]
    simp
  rw [isJoin]
  refine split_join (cons_ne_nil _ _) fun text inside => ?_
  rcases mem_cons.mp inside with rfl | inside
  · decide
  · rcases mem_cons.mp inside with rfl | inside
    · exact free
    · rw [mem_singleton.mp inside]
      decide

theorem conduitOf_eq_some {tokens : List String} {raw : String} :
    conduitOf tokens = some (identity, raw) ↔ tokens = ["witness", identity, "conduit", raw] := by
  constructor
  · intro found
    unfold conduitOf at found
    split at found
    · split at found
      · rename_i words
        cases found
        rw [words.1, words.2]
      · cases found
    · cases found
  · rintro rfl
    unfold conduitOf
    exact if_pos ⟨rfl, rfl⟩

theorem Placeholder.no_symbol (placeholder : Placeholder grammar zero) {part : String}
    (words : ∀ c ∈ part.toList, isWord c = true) :
    (grammar.symbols.find? fun symbol => Inside symbol part) = none := by
  rw [find?_eq_none]
  intro symbol isSymbol inside
  obtain ⟨c, isChar, odd⟩ := placeholder.symbols symbol isSymbol
  have word := words c ((of_decide_eq_true inside : Inside symbol part).subset isChar)
  rw [odd] at word
  cases word

theorem replaced_words (name : isName identity = true) :
    ∀ c ∈ ("witness " ++ identity ++ " 0").toList, isWord c = true := by
  intro c inside
  rw [toList_append, toList_append, mem_append, mem_append] at inside
  have fixed : ∀ c ∈ "witness ".toList ++ " 0".toList, isWord c = true :=
    all_eq_true.mp (by decide)
  rcases inside with (inside | inside) | inside
  · exact fixed c (mem_append_left _ inside)
  · exact isWord_of_isName name c inside
  · exact fixed c (mem_append_right _ inside)

/-- The line that stands for a conduit has no symbols. -/
theorem Placeholder.plain (placeholder : Placeholder grammar zero)
    (name : isName identity = true) (free : ' ' ∉ identity.toList) :
    (grammar.symbols.find? fun symbol => Inside symbol (grammar.checkedPart
      (split ' ' ("witness " ++ identity ++ " 0")) ("witness " ++ identity ++ " 0"))) = none := by
  rw [split_replaced free, placeholder.part]
  exact placeholder.no_symbol (replaced_words name)

theorem Placeholder.reads_iff (placeholder : Placeholder grammar zero) {misplaced : Fault}
    {line replaced : String} (isReplaced : replaceLine misplaced line = .ok replaced)
    (spelled : ∀ identity raw, conduitOf (split ' ' line) = some (identity, raw) →
      fits identity ∧ ∃ slot, Spells raw slot) {clause : Grammar.Clause V} :
    grammar.Reads replaced clause ↔
      ∃ opened, OpenReads grammar fits line opened ∧ clause = opened.map (fill fun _ => zero) := by
  unfold replaceLine at isReplaced
  cases isConduit : conduitOf (split ' ' line) with
  | some found =>
    obtain ⟨identity, raw⟩ := found
    obtain ⟨fit, slot, spells⟩ := spelled identity raw isConduit
    rw [isConduit] at isReplaced
    cases isReplaced
    have tokens := conduitOf_eq_some.mp isConduit
    have free : ' ' ∉ identity.toList :=
      not_mem_of_split (tokens ▸ mem_cons_of_mem _ mem_cons_self)
    constructor
    · intro reads
      cases reads with
      | witness plain words named means =>
        rw [split_replaced free] at words
        cases words
        rw [placeholder.zero] at means
        cases means
        exact ⟨_, .conduit tokens named fit spells, rfl⟩
      | resolve plain words named =>
        rw [split_replaced free] at words
        exact absurd (cons.inj words).1 (by decide)
    · rintro ⟨opened, reads, rfl⟩
      cases reads with
      | conduit words named _ _ =>
        rw [tokens] at words
        cases words
        exact .witness (placeholder.plain (placeholder.named named).2 free) (split_replaced free) named
          (placeholder.zero _)
      | plain closed _ =>
        rw [tokens] at closed
        exact absurd (mem_cons_of_mem _ (mem_cons_of_mem _ mem_cons_self)) closed
  | none =>
    rw [isConduit] at isReplaced
    obtain ⟨_, closed, same⟩ := bind_eq_ok isReplaced
    cases same
    constructor
    · exact fun reads => ⟨_, .plain (raiseIf_eq_ok closed) reads, (map_inr_map_fill _ clause).symm⟩
    · rintro ⟨opened, reads, rfl⟩
      cases reads with
      | conduit words _ _ _ =>
        rw [conduitOf_eq_some.mpr words] at isConduit
        cases isConduit
      | plain _ reads =>
        rw [map_inr_map_fill]
        exact reads

end Reading

/-! ## The lines stay canonical -/

theorem isWord_range {c : Char} (word : isWord c = true) : 32 ≤ c.toNat ∧ c.toNat ≤ 122 := by
  unfold isWord isDigit at word
  simp only [or_eq_true, and_eq_true, decide_eq_true_eq, beq_iff_eq] at word
  rcases word with (⟨lower, upper⟩ | ⟨lower, upper⟩) | rfl
  · have atLeast : 97 ≤ c.toNat := lower
    have atMost : c.toNat ≤ 122 := upper
    omega
  · have atLeast : 48 ≤ c.toNat := lower
    have atMost : c.toNat ≤ 57 := upper
    omega
  · decide

/-- What the line that stands for a conduit is like. -/
structure Plain (line : String) : Prop where
  words : ∀ c ∈ line.toList, isWord c = true
  visible : line ≠ ""
  tight : line = stripped line
  single : ¬ Inside "  " line

theorem plain_replaced {identity : String} (name : isName identity = true) :
    Plain ("witness " ++ identity ++ " 0") := by
  have chars : ("witness " ++ identity ++ " 0").toList = 'w' :: ("itness ".toList ++ identity.toList ++ [' ', '0']) := by
    rw [toList_append, toList_append]
    rfl
  have free : ' ' ∉ identity.toList := by
    intro inside
    unfold isName at name
    cases letters : identity.toList with
    | nil =>
      rw [letters] at inside
      cases inside
    | cons first others =>
      rw [letters] at name inside
      simp only [and_eq_true, all_eq_true] at name
      rcases mem_cons.mp inside with same | inside
      · rw [← same] at name
        exact absurd name.1.1 (by decide)
      · exact absurd (name.1.2 ' ' inside) (by decide)
  refine ⟨replaced_words name, fun blank => ?_, (stripped_eq ?_ ?_).symm, single_of_split ?_⟩
  · rw [blank] at chars
    cases chars
  · intro c isFirst
    rw [chars] at isFirst
    cases isFirst
    decide
  · intro c isLast
    rw [toList_append, List.getLast?_append] at isLast
    cases isLast
    decide
  · rw [split_replaced free]
    intro empty
    rcases mem_cons.mp empty with same | empty
    · exact absurd same (by decide)
    · rcases mem_cons.mp empty with same | empty
      · rw [← same] at name
        exact absurd name (by decide)
      · exact absurd (mem_singleton.mp empty) (by decide)

variable {line : String}

theorem Plain.kernelLine (plain : Plain line) : KernelLine line where
  visible := plain.visible
  ascii := fun c inside => by
    have range := isWord_range (plain.words c inside)
    omega
  plain := fun c inside => by
    have range := isWord_range (plain.words c inside)
    refine ⟨?_, ?_, ?_, ?_⟩ <;>
      · rintro rfl
        exact absurd range (by decide)
  tight := plain.tight
  single := plain.single

variable {host : Host}

theorem Plain.valueLine (normalizes : host.Normalizes)
    (plain : Plain line) : ValueLine host line where
  visible := plain.visible
  straight := fun c inside control => by
    have far : ∀ c ∈ bidiControls, 122 < c.toNat := fun c inside => of_decide_eq_true
      (all_eq_true.mp (show (bidiControls.all fun c => 122 < c.toNat) = true by decide) c inside)
    have range := isWord_range (plain.words c inside)
    have beyond := far c control
    omega
  plain := plain.kernelLine.plain
  normal := normalizes.ascii line plain.kernelLine.ascii
  tight := plain.tight
  single := plain.single
  printed := fun c inside => by
    have range := isWord_range (plain.words c inside)
    omega

/-- The line that stands for a conduit is not longer. -/
theorem byteLength_replaced {misplaced : Fault} {replaced : String}
    (isReplaced : replaceLine misplaced line = .ok replaced) : byteLength replaced ≤ byteLength line := by
  unfold replaceLine at isReplaced
  split at isReplaced
  · rename_i identity raw isConduit
    cases isReplaced
    have tokens := conduitOf_eq_some.mp isConduit
    have isLine : line = "witness " ++ identity ++ " conduit " ++ raw := by
      rw [← join_split ' ' line, tokens]
      unfold join
      rw [← toList_inj, toList_ofList]
      simp [intercalate_cons_cons, intercalate_singleton]
    rw [isLine]
    simp only [byteLength_append]
    have shorter : byteLength " 0" ≤ byteLength " conduit " := by decide
    omega
  · obtain ⟨_, -, same⟩ := bind_eq_ok isReplaced
    cases same
    exact Nat.le_refl _

section Sources

variable {misplaced : Fault} {lines replaced : List String}
  (isReplaced : Forall₂ (fun line other => replaceLine misplaced line = .ok other) lines replaced)

include isReplaced

abbrev ConduitsNamed (lines : List String) : Prop :=
  ∀ line ∈ lines, ∀ identity raw, conduitOf (split ' ' line) = some (identity, raw) → isName identity = true

theorem replaced_all {good : String → Prop} (named : ConduitsNamed lines)
    (plain : ∀ line, Plain line → good line) (each : ∀ line ∈ lines, good line) :
    ∀ line ∈ replaced, good line := by
  intro other inside
  obtain ⟨line, isLine, same⟩ := exists_left_of_forall₂ isReplaced inside
  unfold replaceLine at same
  split at same
  · rename_i identity raw isConduit
    cases same
    exact plain _ (plain_replaced (named line isLine identity raw isConduit))
  · obtain ⟨_, -, same⟩ := bind_eq_ok same
    cases same
    exact each _ isLine

theorem replaced_ne_nil (some : lines ≠ []) : replaced ≠ [] := by
  rintro rfl
  cases isReplaced
  exact some rfl

theorem replaced_sum :
    (replaced.map fun line => byteLength line + 1).sum ≤ (lines.map fun line => byteLength line + 1).sum := by
  induction isReplaced with
  | nil => exact Nat.le_refl _
  | cons first _ ih =>
    have shorter := byteLength_replaced first
    rw [map_cons, map_cons, sum_cons, sum_cons]
    omega

/-- No line gets a newline. -/
theorem replaced_whole (whole : ∀ line ∈ lines, '\n' ∉ line.toList) :
    ∀ line ∈ replaced, '\n' ∉ line.toList := by
  intro other inside newline
  obtain ⟨line, isLine, same⟩ := exists_left_of_forall₂ isReplaced inside
  unfold replaceLine at same
  split at same
  · rename_i identity raw isConduit
    cases same
    rw [toList_append, toList_append, mem_append, mem_append] at newline
    rcases newline with (newline | newline) | newline
    · exact absurd newline (by decide)
    · have isPart : identity ∈ split ' ' line := by
        rw [conduitOf_eq_some.mp isConduit]
        exact mem_cons_of_mem _ mem_cons_self
      exact whole line isLine (mem_of_split isPart newline)
    · exact absurd newline (by decide)
  · obtain ⟨_, -, same⟩ := bind_eq_ok same
    cases same
    exact whole _ isLine newline

variable {source : String}

/-- The source without conduits is canonical, and its lines are those that were replaced. -/
theorem canonicalSource_replaced (canonical : canonicalSource source = .ok lines)
    (named : ConduitsNamed lines) : canonicalSource (textOf replaced) = .ok replaced := by
  obtain ⟨-, some, each, small⟩ := canonicalSource_eq_ok.mp canonical
  exact canonicalSource_eq_ok.mpr ⟨rfl, replaced_ne_nil isReplaced some,
    replaced_all isReplaced named (fun _ plain => plain.kernelLine) each,
    (replaced_sum isReplaced).trans small⟩

theorem canonicalLines_replaced (normalizes : host.Normalizes)
    (canonical : canonicalLines host source = .ok lines) (named : ConduitsNamed lines) :
    canonicalLines host (textOf replaced) = .ok replaced := by
  obtain ⟨-, some, each, small⟩ := (canonicalLines_eq_ok normalizes).mp canonical
  exact (canonicalLines_eq_ok normalizes).mpr ⟨rfl, replaced_ne_nil isReplaced some,
    replaced_all isReplaced named (fun _ plain => plain.valueLine normalizes) each,
    (replaced_sum isReplaced).trans small⟩

end Sources

/-! ## Reading all lines -/

section Graphs

variable {grammar : Grammar V} {zero : V} {fits : String → Prop} {misplaced : Fault}
  {lines replaced : List String}

theorem witnessesOf_map {L : Type} (change : L → V) (number : Nat) (clauses : List (Grammar.Clause L)) :
    Grammar.witnessesOf number (clauses.map (Grammar.Clause.map change)) =
      (Grammar.witnessesOf number clauses).map (Witness.map change) := by
  induction clauses generalizing number with
  | nil => rfl
  | cons clause clauses ih =>
    cases clause with
    | witness name term => exact congrArg (_ :: ·) (ih (number + 1))
    | resolve name => exact ih (number + 1)

theorem resolvesOf_map {L : Type} (change : L → V) (number : Nat) (clauses : List (Grammar.Clause L)) :
    Grammar.resolvesOf number (clauses.map (Grammar.Clause.map change)) =
      Grammar.resolvesOf number clauses := by
  induction clauses generalizing number with
  | nil => rfl
  | cons clause clauses ih =>
    cases clause with
    | witness name term => exact ih (number + 1)
    | resolve name => exact congrArg (_ :: ·) (ih (number + 1))

/-- The slots on the lines are spelled as slots, for names that are open to conduits. -/
abbrev SlotsSpelled (fits : String → Prop) (lines : List String) : Prop :=
  ∀ line ∈ lines, ∀ identity raw, conduitOf (split ' ' line) = some (identity, raw) →
    fits identity ∧ ∃ slot, Spells raw slot

theorem Placeholder.reads_all (placeholder : Placeholder grammar zero)
    (isReplaced : Forall₂ (fun line other => replaceLine misplaced line = .ok other) lines replaced)
    (spelled : SlotsSpelled fits lines) {clauses : List (Grammar.Clause V)} :
    Forall₂ grammar.Reads replaced clauses ↔
      ∃ opened, Forall₂ (OpenReads grammar fits) lines opened ∧
        clauses = opened.map (Grammar.Clause.map (fill fun _ => zero)) := by
  induction isReplaced generalizing clauses with
  | nil =>
    constructor
    · intro reads
      cases reads
      exact ⟨[], .nil, rfl⟩
    · rintro ⟨opened, reads, rfl⟩
      cases reads
      exact .nil
  | cons first _ ih =>
    have here := fun {clause} => @Placeholder.reads_iff _ _ _ fits placeholder _ _ _ first
      (spelled _ mem_cons_self) clause
    have others := fun {clauses} => @ih (forall_mem_cons.mp spelled).2 clauses
    constructor
    · intro reads
      cases reads with
      | cons one rest =>
        obtain ⟨opened, isOpened, rfl⟩ := here.mp one
        obtain ⟨all, areOpened, rfl⟩ := others.mp rest
        exact ⟨opened :: all, .cons isOpened areOpened, rfl⟩
    · rintro ⟨opened, reads, rfl⟩
      cases reads with
      | cons one rest => exact .cons (here.mpr ⟨_, one, rfl⟩) (others.mpr ⟨_, rest, rfl⟩)

/-- The lines without conduits are read as an open graph with the number filled in. -/
theorem Placeholder.parse_iff (placeholder : Placeholder grammar zero)
    (isReplaced : Forall₂ (fun line other => replaceLine misplaced line = .ok other) lines replaced)
    (spelled : SlotsSpelled fits lines) {order : Graph V → Checked (List String)} {texts : OrderTexts}
    (orders : ∀ graph : Graph V, (graph.witnesses.map Witness.name).Nodup →
      ((∃ names, order graph = .ok names) ↔ ∃ names, orderOf texts graph = .ok names))
    {graph : Graph V} :
    grammar.parse order replaced = .ok graph ↔
      ∃ opened, OpenGraph grammar fits texts lines opened ∧ graph = opened.map (fill fun _ => zero) := by
  rw [Grammar.parse_eq_ok placeholder.uniform]
  constructor
  · rintro ⟨_, reads, isWitnesses, resolves, distinct, few, some, ordered⟩
    obtain ⟨clauses, isOpened, rfl⟩ := (placeholder.reads_all isReplaced spelled).mp reads
    rw [witnessesOf_map] at isWitnesses
    rw [resolvesOf_map] at resolves
    have isMap : graph = Graph.map (fill fun _ => zero)
        ⟨Grammar.witnessesOf 1 clauses, graph.resolve, graph.resolveLine⟩ := by
      obtain ⟨witnesses, resolve, line⟩ := graph
      unfold Graph.map
      dsimp only at isWitnesses ⊢
      rw [isWitnesses]
    have ordered := (orders graph distinct).mp ordered
    rw [isMap, orderOf_map] at ordered
    rw [isWitnesses, names_map] at distinct
    rw [isWitnesses, length_map] at few
    refine ⟨_, ⟨⟨clauses, isOpened, rfl, resolves⟩, distinct, few, fun empty => some ?_, ordered⟩, isMap⟩
    dsimp only at empty
    rw [isWitnesses, empty]
    rfl
  · rintro ⟨opened, ⟨⟨clauses, reads, isWitnesses, resolves⟩, distinct, few, some, ordered⟩, rfl⟩
    have distinct' : ((opened.map (fill fun _ => zero)).witnesses.map Witness.name).Nodup := by
      unfold Graph.map
      rw [names_map]
      exact distinct
    refine ⟨_, (placeholder.reads_all isReplaced spelled).mpr ⟨clauses, reads, rfl⟩, ?_, ?_, distinct', ?_,
      ?_, (orders _ distinct').mpr ?_⟩
    · rw [witnessesOf_map, ← isWitnesses]
      rfl
    · rw [resolvesOf_map, resolves]
      rfl
    · unfold Graph.map
      rw [length_map]
      exact few
    · exact fun empty => some (map_eq_nil_iff.mp empty)
    · rw [orderOf_map]
      exact ordered

end Graphs

end Koschei.Kernel
