import Koschei.Kernel.Graph
import Koschei.Lib.Pointwise

/-!
# Reading witness graphs

`parse_native_kernel`, `parse_native_value_graph` and `parse_native_decision_graph`
read the lines of a source one after the other: a line adds a witness, or names the
one that is resolved. They differ in their words and in the texts of their errors,
which a `Grammar` gives. What a source means does not depend on the order of its
lines.
-/

namespace Koschei.Kernel

open Lib

variable {V : Type}

/-- `MAX_WITNESSES`, `MAX_VALUE_WITNESSES`. -/
def maxWitnesses : Nat := 4096

/-- What a frontend reads its clauses with. The symbols stand for a set: where a line has several of
them, the source reports any one. -/
structure Grammar (V : Type) where
  fault : Report → Fault
  symbols : List String
  checkedPart : List String → String → String
  symbolCode : String
  symbolMessage : String → String
  symbolColumn : String → String → Nat
  name : String → Nat → Checked String
  term : List String → Nat → Checked (Term V)
  clauseCode : String
  needsTerm : String
  duplicateCode : String
  duplicate : String → String
  tooManyCode : String
  tooMany : String
  resolveCode : String
  oneResolve : String
  emptyCode : String
  noWitness : String
  legacyWords : List String
  legacyWord : String → String
  unknownClause : String → String

/-- What has been read: the witnesses, and the name and the line of the resolve clause. -/
structure Draft (V : Type) where
  witnesses : List (Witness V)
  resolve : Option (String × Nat)

namespace Grammar

variable (grammar : Grammar V)

def readLine (draft : Draft V) (number : Nat) (line : String) : Checked (Draft V) :=
  let tokens := split ' ' line
  match grammar.symbols.find? fun symbol => Inside symbol (grammar.checkedPart tokens line) with
  | some symbol =>
    .error (grammar.fault ⟨grammar.symbolCode, grammar.symbolMessage symbol, number,
      grammar.symbolColumn symbol line⟩)
  | none =>
    match tokens with
    | [] => .error .index
    | head :: rest =>
      if head = "witness" then
        match rest with
        | identity :: word :: words => do
          let name ← grammar.name identity number
          raiseIf (name ∈ draft.witnesses.map Witness.name)
            (grammar.fault ⟨grammar.duplicateCode, grammar.duplicate name, number, 1⟩)
          let term ← grammar.term (word :: words) number
          let witnesses := draft.witnesses ++ [⟨name, term, number⟩]
          raiseIf (maxWitnesses < witnesses.length)
            (grammar.fault ⟨grammar.tooManyCode, grammar.tooMany, number, 1⟩)
          .ok { draft with witnesses := witnesses }
        | _ => .error (grammar.fault ⟨grammar.clauseCode, grammar.needsTerm, number, 1⟩)
      else if head = "resolve" then
        match rest with
        | [identity] => do
          raiseIf draft.resolve.isSome
            (grammar.fault ⟨grammar.resolveCode, grammar.oneResolve, number, 1⟩)
          let name ← grammar.name identity number
          .ok { draft with resolve := some (name, number) }
        | _ =>
          .error (grammar.fault
            ⟨grammar.clauseCode, "resolve requires exactly one witness identity", number, 1⟩)
      else if head ∈ grammar.legacyWords then
        .error (grammar.fault ⟨grammar.symbolCode, grammar.legacyWord head, number, 1⟩)
      else .error (grammar.fault ⟨grammar.clauseCode, grammar.unknownClause head, number, 1⟩)

/-- The lines one after the other. -/
def readLines : Draft V → Nat → List String → Checked (Draft V)
  | draft, _, [] => .ok draft
  | draft, number, line :: lines => do
    let draft ← grammar.readLine draft number line
    readLines draft (number + 1) lines

/-- The lines of a source as a graph, whose witnesses have an order. -/
def parse (order : Graph V → Checked (List String)) (lines : List String) : Checked (Graph V) := do
  let draft ← grammar.readLines ⟨[], none⟩ 1 lines
  raiseIf (draft.witnesses = []) (grammar.fault ⟨grammar.emptyCode, grammar.noWitness, 1, 1⟩)
  match draft.resolve with
  | none => .error (grammar.fault ⟨grammar.resolveCode, grammar.oneResolve, 1, 1⟩)
  | some (resolve, line) =>
    let graph : Graph V := ⟨draft.witnesses, resolve, line⟩
    let _ ← order graph
    .ok graph

/-! ## What the lines say -/

/-- A clause of a source. -/
inductive Clause (V : Type) where
  | witness (name : String) (term : Term V)
  | resolve (name : String)

/-- A line reads as a clause. -/
inductive Reads (line : String) : Clause V → Prop
  | witness {identity word name : String} {words : List String} {term : Term V} {number : Nat}
      (plain : (grammar.symbols.find? fun symbol =>
        Inside symbol (grammar.checkedPart (split ' ' line) line)) = none)
      (tokens : split ' ' line = "witness" :: identity :: word :: words)
      (named : grammar.name identity number = .ok name)
      (means : grammar.term (word :: words) number = .ok term) : Reads line (.witness name term)
  | resolve {identity name : String} {number : Nat}
      (plain : (grammar.symbols.find? fun symbol =>
        Inside symbol (grammar.checkedPart (split ' ' line) line)) = none)
      (tokens : split ' ' line = ["resolve", identity])
      (named : grammar.name identity number = .ok name) : Reads line (.resolve name)

end Grammar

/-! ### The numbers of the lines -/

section Lineless

variable {α β : Type}

/-- A check whose result does not depend on the line it is made in; its error may. -/
structure Lineless (check : Nat → Checked α) : Prop where
  same : ∀ {value : α} {number : Nat}, check number = .ok value → ∀ other, check other = .ok value

theorem Lineless.ok (value : α) : Lineless fun _ => (.ok value : Checked α) := ⟨fun passed _ => passed⟩

theorem Lineless.error (fault : Nat → Fault) :
    Lineless fun number => (.error (fault number) : Checked α) :=
  ⟨fun impossible _ => by cases impossible⟩

theorem Lineless.raiseIf (condition : Prop) [Decidable condition] (fault : Nat → Fault) :
    Lineless fun number => raiseIf condition (fault number) := by
  constructor
  intro value number passed other
  exact raiseIf_of_not (raiseIf_eq_ok passed)

theorem Lineless.bind {check : Nat → Checked α} {next : α → Nat → Checked β} (first : Lineless check)
    (others : ∀ value, Lineless (next value)) :
    Lineless fun number => check number >>= fun value => next value number := by
  constructor
  intro value number passed other
  obtain ⟨between, ran, rest⟩ := bind_eq_ok passed
  exact (bind_of_ok (first.same ran other)).trans ((others between).same rest other)

end Lineless

namespace Grammar

variable (grammar : Grammar V)

/-- The number of a line matters for its errors only. -/
structure Uniform : Prop where
  name : ∀ token, Lineless (grammar.name token)
  term : ∀ tokens, Lineless (grammar.term tokens)

/-- A clause more. -/
def add (draft : Draft V) (number : Nat) : Clause V → Option (Draft V)
  | .witness name term =>
    if name ∉ draft.witnesses.map Witness.name ∧ draft.witnesses.length < maxWitnesses then
      some { draft with witnesses := draft.witnesses ++ [⟨name, term, number⟩] }
    else none
  | .resolve name => if draft.resolve.isSome then none else some { draft with resolve := some (name, number) }

variable {grammar}

variable {number : Nat}

theorem readLine_eq_ok (uniform : grammar.Uniform) {draft after : Draft V} {line : String} :
    grammar.readLine draft number line = .ok after ↔
      ∃ clause, grammar.Reads line clause ∧ add draft number clause = some after := by
  constructor
  · intro ran
    unfold readLine at ran
    dsimp only at ran
    split at ran
    · cases ran
    · rename_i plain
      split at ran
      · cases ran
      · rename_i head rest tokens
        split at ran
        · rename_i isWitness
          subst isWitness
          split at ran
          · rename_i identity word words
            obtain ⟨name, named, ran⟩ := bind_eq_ok ran
            obtain ⟨_, fresh, ran⟩ := bind_eq_ok ran
            obtain ⟨term, means, ran⟩ := bind_eq_ok ran
            obtain ⟨_, few, ran⟩ := bind_eq_ok ran
            cases ran
            refine ⟨.witness name term, .witness plain tokens named means,
              if_pos ⟨raiseIf_eq_ok fresh, ?_⟩⟩
            have bounded := raiseIf_eq_ok few
            rw [length_append, length_singleton] at bounded
            omega
          · cases ran
        · split at ran
          · rename_i isResolve
            subst isResolve
            split at ran
            · rename_i identity
              obtain ⟨_, first, ran⟩ := bind_eq_ok ran
              obtain ⟨name, named, ran⟩ := bind_eq_ok ran
              cases ran
              exact ⟨.resolve name, .resolve plain tokens named, if_neg (raiseIf_eq_ok first)⟩
            · cases ran
          · split at ran <;> cases ran
  · rintro ⟨clause, reads, added⟩
    cases reads with
    | witness plain tokens named means =>
      unfold add at added
      dsimp only at added
      split at added
      · rename_i allowed
        cases added
        unfold readLine
        dsimp only
        rw [plain, tokens]
        dsimp only
        rw [if_pos rfl, bind_of_ok ((uniform.name _).same named number), bind_raiseIf allowed.1,
          bind_of_ok ((uniform.term _).same means number), bind_raiseIf]
        rw [length_append, length_singleton]
        exact Nat.not_lt.mpr allowed.2
      · cases added
    | resolve plain tokens named =>
      unfold add at added
      dsimp only at added
      split at added
      · cases added
      · rename_i first
        cases added
        unfold readLine
        dsimp only
        rw [plain, tokens]
        dsimp only
        rw [if_neg (by decide), if_pos rfl, bind_raiseIf first,
          bind_of_ok ((uniform.name _).same named number)]

/-- Clauses one after the other. -/
def addAll : Draft V → Nat → List (Clause V) → Option (Draft V)
  | draft, _, [] => some draft
  | draft, number, clause :: clauses =>
    (add draft number clause).bind fun draft => addAll draft (number + 1) clauses

variable {lines : List String}

theorem readLines_eq_ok (uniform : grammar.Uniform) {draft after : Draft V} :
    grammar.readLines draft number lines = .ok after ↔
      ∃ clauses, Forall₂ grammar.Reads lines clauses ∧ addAll draft number clauses = some after := by
  induction lines generalizing draft number with
  | nil =>
    constructor
    · intro ran
      cases ran
      exact ⟨[], .nil, rfl⟩
    · rintro ⟨clauses, reads, added⟩
      cases reads
      cases added
      rfl
  | cons line lines ih =>
    constructor
    · intro ran
      obtain ⟨between, first, ran⟩ := bind_eq_ok ran
      obtain ⟨clause, reads, added⟩ := (readLine_eq_ok uniform).mp first
      obtain ⟨clauses, others, rest⟩ := ih.mp ran
      exact ⟨clause :: clauses, .cons reads others, by rw [addAll, added]; exact rest⟩
    · rintro ⟨clauses, reads, added⟩
      cases reads with
      | cons reads others =>
        obtain ⟨between, first, rest⟩ := bind_eq_some_iff.mp added
        exact (bind_of_ok ((readLine_eq_ok uniform).mpr ⟨_, reads, first⟩)).trans
          (ih.mpr ⟨_, others, rest⟩)

def witnessesOf : Nat → List (Clause V) → List (Witness V)
  | _, [] => []
  | number, .witness name term :: clauses =>
    ⟨name, term, number⟩ :: witnessesOf (number + 1) clauses
  | number, .resolve _ :: clauses => witnessesOf (number + 1) clauses

/-- The names that numbered clauses resolve, with their lines. -/
def resolvesOf : Nat → List (Clause V) → List (String × Nat)
  | _, [] => []
  | number, .witness _ _ :: clauses => resolvesOf (number + 1) clauses
  | number, .resolve name :: clauses => (name, number) :: resolvesOf (number + 1) clauses

theorem addAll_iff {draft after : Draft V} {number : Nat} {clauses : List (Clause V)}
    (distinct : (draft.witnesses.map Witness.name).Nodup)
    (few : draft.witnesses.length ≤ maxWitnesses) :
    addAll draft number clauses = some after ↔
      ((draft.witnesses ++ witnessesOf number clauses).map Witness.name).Nodup ∧
      (draft.witnesses ++ witnessesOf number clauses).length ≤ maxWitnesses ∧
      (draft.resolve.toList ++ resolvesOf number clauses).length ≤ 1 ∧
      after = ⟨draft.witnesses ++ witnessesOf number clauses,
        (draft.resolve.toList ++ resolvesOf number clauses).head?⟩ := by
  induction clauses generalizing draft number with
  | nil =>
    rw [addAll, witnessesOf, resolvesOf, append_nil]
    constructor
    · intro added
      cases added
      refine ⟨distinct, few, ?_, ?_⟩
      · rw [append_nil]
        cases after.resolve <;> simp
      · obtain ⟨witnesses, resolve⟩ := after
        cases resolve <;> rfl
    · rintro ⟨-, -, -, rfl⟩
      obtain ⟨witnesses, resolve⟩ := draft
      cases resolve <;> rfl
  | cons clause clauses ih =>
    cases clause with
    | witness name term =>
      rw [addAll, witnessesOf, resolvesOf]
      by_cases allowed : name ∉ draft.witnesses.map Witness.name ∧
          draft.witnesses.length < maxWitnesses
      · have next := @ih ⟨draft.witnesses ++ [⟨name, term, number⟩], draft.resolve⟩ (number + 1) (by
            rw [map_append]
            exact nodup_append.mpr ⟨distinct, nodup_singleton _,
              fun other inside last isLast same => by
                rw [same, mem_singleton.mp isLast] at inside
                exact allowed.1 inside⟩)
          (by rw [length_append, length_singleton]; exact allowed.2)
        rw [add, if_pos allowed, bind_some, next, append_assoc]
        rfl
      · rw [add, if_neg allowed]
        constructor
        · intro impossible
          cases impossible
        · rintro ⟨nodup, bounded, -, -⟩
          refine absurd ⟨fun inside => ?_, ?_⟩ allowed
          · rw [map_append, map_cons] at nodup
            exact (nodup_append.mp nodup).2.2 name inside name mem_cons_self rfl
          · rw [length_append, length_cons] at bounded
            omega
    | resolve name =>
      rw [addAll, witnessesOf, resolvesOf]
      cases resolved : draft.resolve with
      | none =>
        have next := @ih ⟨draft.witnesses, some (name, number)⟩ (number + 1) distinct few
        rw [add, resolved, isSome_none, if_neg false_ne_true, bind_some, next]
        rfl
      | some other =>
        rw [add, resolved, isSome_some, if_pos rfl]
        constructor
        · intro impossible
          cases impossible
        · rintro ⟨-, -, once, -⟩
          simp at once

variable {order : Graph V → Checked (List String)}

theorem parse_eq_ok (uniform : grammar.Uniform) {graph : Graph V} :
    grammar.parse order lines = .ok graph ↔ ∃ clauses, Forall₂ grammar.Reads lines clauses ∧
        graph.witnesses = witnessesOf 1 clauses ∧
        resolvesOf 1 clauses = [(graph.resolve, graph.resolveLine)] ∧
        (graph.witnesses.map Witness.name).Nodup ∧ graph.witnesses.length ≤ maxWitnesses ∧
        graph.witnesses ≠ [] ∧ ∃ names, order graph = .ok names := by
  have whole : ∀ {clauses : List (Clause V)} {after : Draft V},
      addAll ⟨[], none⟩ 1 clauses = some after ↔ _ :=
    @fun clauses after => @addAll_iff V ⟨[], none⟩ after 1 clauses nodup_nil (Nat.zero_le _)
  constructor
  · intro ran
    unfold parse at ran
    obtain ⟨draft, read, ran⟩ := bind_eq_ok ran
    obtain ⟨clauses, reads, added⟩ := (readLines_eq_ok uniform).mp read
    obtain ⟨nodup, few, once, rfl⟩ := whole.mp added
    obtain ⟨_, some, ran⟩ := bind_eq_ok ran
    dsimp only [nil_append, toList_none] at nodup few once some ran
    split at ran
    · cases ran
    · rename_i resolve line isResolve
      obtain ⟨names, ordered, ran⟩ := bind_eq_ok ran
      cases ran
      refine ⟨clauses, reads, rfl, ?_, nodup, few, raiseIf_eq_ok some, names, ordered⟩
      cases resolves : resolvesOf 1 clauses with
      | nil =>
        rw [resolves] at isResolve
        cases isResolve
      | cons first others =>
        rw [resolves] at isResolve once
        cases isResolve
        have none : others = [] := List.eq_nil_of_length_eq_zero (by simpa using once)
        rw [none]
  · rintro ⟨clauses, reads, isWitnesses, resolves, nodup, few, some, names, ordered⟩
    obtain ⟨witnesses, resolve, line⟩ := graph
    dsimp only at isWitnesses resolves nodup few some ordered
    subst isWitnesses
    have added : addAll ⟨[], none⟩ 1 clauses = .some ⟨witnessesOf 1 clauses, .some (resolve, line)⟩ := by
      refine whole.mpr ⟨nodup, few, ?_, ?_⟩
      · rw [toList_none, nil_append, resolves]
        exact Nat.le_refl 1
      · rw [toList_none, nil_append, resolves]
        rfl
    unfold parse
    rw [bind_of_ok ((readLines_eq_ok uniform).mpr ⟨clauses, reads, added⟩), bind_raiseIf some]
    exact bind_of_ok ordered

theorem mem_witnessesOf {clauses : List (Clause V)} {witness : Witness V}
    (inside : witness ∈ witnessesOf number clauses) : .witness witness.name witness.term ∈ clauses := by
  induction clauses generalizing number with
  | nil => cases inside
  | cons clause clauses ih =>
    cases clause with
    | witness name term =>
      rw [witnessesOf] at inside
      rcases mem_cons.mp inside with rfl | inside
      · exact mem_cons_self
      · exact mem_cons_of_mem _ (ih inside)
    | resolve name => exact mem_cons_of_mem _ (ih inside)

theorem terms_of_parse (uniform : grammar.Uniform) {holds : Term V → Prop}
    (reads : ∀ tokens number term, grammar.term tokens number = .ok term → holds term)
    {graph : Graph V} (parsed : grammar.parse order lines = .ok graph) :
    ∀ witness ∈ graph.witnesses, holds witness.term := by
  obtain ⟨clauses, read, isWitnesses, -⟩ := (parse_eq_ok uniform).mp parsed
  intro witness inside
  rw [isWitnesses] at inside
  obtain ⟨line, -, isRead⟩ := exists_left_of_forall₂ read (mem_witnessesOf inside)
  cases isRead with
  | witness plain tokens named means => exact reads _ _ _ means

end Grammar

end Koschei.Kernel
