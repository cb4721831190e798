import Koschei.Kernel.Arithmetic

/-!
# Native value domains

`native_value_domains_v1.py` with `native_value_domain_canonicality_v1.py` installed:
graphs whose values are whole numbers, truths and glyphs. A source is Unicode NFC,
and so is every text that a `merge` joins. What an operation means is stated once,
for every way to join texts; the evaluators of the package differ in the texts of
their errors, and in whether they normalize what they join.
-/

namespace Koschei.Kernel

open Lib

/-- `WHOLE`, `TRUTH`, `GLYPHS`. -/
inductive Domain where
  | whole
  | truth
  | glyphs
  deriving DecidableEq

/-- `NativeValue`: a value of its domain. -/
inductive NativeValue where
  | whole (value : Int)
  | truth (value : Bool)
  | glyphs (text : String)
  deriving DecidableEq

def NativeValue.domain : NativeValue → Domain
  | .whole _ => .whole
  | .truth _ => .truth
  | .glyphs _ => .glyphs

/-- `MAX_GLYPHS_LITERAL_BYTES`. -/
def maxGlyphsLiteralBytes : Nat := 65536

/-- `MAX_GLYPHS_RESULT_BYTES`. -/
def maxGlyphsResultBytes : Nat := 1048576

/-- `_VALUE_WORDS`. -/
def valueWords : List String :=
  ["witness", "resolve", "sum", "difference", "product", "truth", "yes", "no", "glyphs", "same",
    "merge"]

/-- `_BINARY_OPS`. -/
def binaryOps : List String := ["sum", "difference", "product", "same", "merge"]

/-- `_LEGACY_WORDS`. -/
def legacyWords : List String := legacyDebtWords ++ ["type", "class", "module", "package"]

/-- `_LEGACY_SYMBOLS`. -/
def legacySymbols : List String := legacyDebtSymbols ++ ["::", "@", "#"]

/-- `_fail`. -/
def valueFault (code message : String) (line column : Nat) : Fault :=
  .value ⟨code, message, line, column⟩

/-- `_BIDI_CONTROLS`. -/
def bidiControls : List Char :=
  ['\u061c', '\u200e', '\u200f', '\u202a', '\u202b', '\u202c', '\u202d', '\u202e', '\u2066', '\u2067',
    '\u2068', '\u2069']

/-- The error at the first bidirectional control of a source. -/
def bidiFault (source : String) : Fault :=
  let before := source.toList.takeWhile fun c => c ∉ bidiControls
  valueFault "KV1007" "bidirectional control characters are forbidden in native value source"
    (before.count '\n' + 1) ((before.reverse.takeWhile fun c => c ≠ '\n').length + 1)

/-- The checks of one line in `_canonical_lines`. -/
def checkClauses : Nat → List String → Checked Unit
  | _, [] => .ok ()
  | number, line :: lines => do
    raiseIf (line ≠ stripped line ∨ Inside "  " line)
      (valueFault "KV1003" "clauses forbid indentation, trailing space and repeated spaces" number 1)
    raiseIf (line.toList.any fun c => c.toNat < 32 || (127 ≤ c.toNat && c.toNat ≤ 159))
      (valueFault "KV1003" "control characters are forbidden" number 1)
    checkClauses (number + 1) lines

/-- `_canonical_lines`, as `_canonical_lines_hardened` leaves it. -/
def canonicalLines (host : Host) (source : String) : Checked (List String) := do
  raiseIf (source.toList.any fun c => c ∈ bidiControls) (bidiFault source)
  raiseIf ('\x00' ∈ source.toList) (valueFault "KV1000" "NUL is forbidden in native value source" 1 1)
  raiseIf (source ≠ host.normalize source)
    (valueFault "KV1001" "native value source must be Unicode NFC canonical" 1 1)
  raiseIf (maxSourceBytes < byteLength source)
    (valueFault "KV1002" "native value source exceeds 1048576 bytes" 1 1)
  raiseIf ('\r' ∈ source.toList ∨ '\t' ∈ source.toList)
    (valueFault "KV1003" "native value source requires LF and forbids tabs" 1 1)
  raiseIf (¬ ['\n'] <:+ source.toList ∨ ['\n', '\n'] <:+ source.toList)
    (valueFault "KV1003" "native value source must end in exactly one LF" 1 1)
  let lines := sourceLines source
  raiseIf ("" ∈ lines) (valueFault "KV1003" "blank clauses are not canonical" 1 1)
  checkClauses 1 lines
  .ok lines

/-- `_name`. -/
def valueName (host : Host) (token : String) (line : Nat) : Checked String := do
  raiseIf (token ∈ valueWords ∨ token ∈ legacyWords)
    (valueFault "KV1004" (host.repr token ++ " is reserved and cannot be a witness identity") line 1)
  raiseIf (isAscii token = false)
    (valueFault "KV1004" "witness identities are lowercase ASCII only" line 1)
  raiseIf (isName token = false)
    (valueFault "KV1004" "witness identity must be 1..64 lowercase ASCII letters/digits" line 1)
  .ok token

/-- `_plain_atom`, with `_whole`. -/
def plainAtom (host : Host) (token : String) (line : Nat) : Checked (Atom NativeValue) :=
  if isNumber token then do
    raiseIf (1 < token.length ∧ ['0'] <+: token.toList)
      (valueFault "KV1200" "whole literal has a leading-zero alias" line 1)
    raiseIf (19 < token.length ∨ token.length = 19 ∧ "9223372036854775807" < token)
      (valueFault "KV1201" "whole literal exceeds signed Int64 reality" line 1)
    .ok (.literal (.whole (decimal token)))
  else do
    let name ← valueName host token line
    .ok (.witness name)

/-- `_glyphs_term`, after the word `glyphs`. -/
def glyphsTerm (host : Host) (tokens : List String) (line : Nat) : Checked (Term NativeValue) :=
  match tokens with
  | [] => .error (valueFault "KV1300" "glyphs requires a canonical UTF-8 byte length and payload" line 1)
  | size :: words => do
    raiseIf (isNumber size = false)
      (valueFault "KV1300" "glyphs byte length must be canonical unsigned decimal" line 1)
    raiseIf (1 < size.length ∧ ['0'] <+: size.toList)
      (valueFault "KV1300" "glyphs byte length has a leading-zero alias" line 1)
    raiseIf (6 < size.length) (valueFault "KV1300" "glyphs byte length exceeds literal budget" line 1)
    let expected := decimal size
    raiseIf (maxGlyphsLiteralBytes < expected)
      (valueFault "KV1300" "glyphs literal exceeds 65536 bytes" line 1)
    let payload := join ' ' words
    raiseIf (payload ≠ host.normalize payload)
      (valueFault "KV1301" "glyphs payload must be Unicode NFC canonical" line 1)
    let actual := byteLength payload
    raiseIf (actual ≠ expected)
      (valueFault "KV1302" ("glyphs byte length says " ++ toString expected ++ " but payload is "
        ++ toString actual ++ " bytes") line 1)
    .ok ⟨none, [.literal (.glyphs payload)]⟩

/-- `_term`. -/
def valueTerm (host : Host) (tokens : List String) (line : Nat) : Checked (Term NativeValue) :=
  if tokens.head? = some "truth" then
    match tokens.tail with
    | [word] =>
      if word = "yes" ∨ word = "no" then .ok ⟨none, [.literal (.truth (word == "yes"))]⟩
      else .error (valueFault "KV1303" "truth literal is exactly: truth yes|no" line 1)
    | _ => .error (valueFault "KV1303" "truth literal is exactly: truth yes|no" line 1)
  else if tokens.head? = some "glyphs" then glyphsTerm host tokens.tail line
  else
    match tokens with
    | [] => .error (valueFault "KV1005" "witness requires a value term" line 1)
    | [token] => do
      let atom ← plainAtom host token line
      .ok ⟨none, [atom]⟩
    | [operation, first, second] =>
      if operation ∈ binaryOps then do
        let left ← plainAtom host first line
        let right ← plainAtom host second line
        .ok ⟨some operation, [left, right]⟩
      else .error (valueFault "KV1005"
        "term is an atom, truth yes|no, glyphs <utf8-bytes> <payload>, or a two-atom native operation"
        line 1)
    | _ => .error (valueFault "KV1005"
        "term is an atom, truth yes|no, glyphs <utf8-bytes> <payload>, or a two-atom native operation"
        line 1)

/-- The part of a line in which punctuation is forbidden: the payload of glyphs may have it. -/
def grammarPrefix (tokens : List String) (line : String) : String := match tokens with
  | head :: identity :: word :: size :: _ =>
    if head = "witness" ∧ word = "glyphs" then join ' ' [head, identity, word, size] else line
  | _ => line

/-- The clauses of `parse_native_value_graph`. -/
def valueGrammar (host : Host) : Grammar NativeValue where
  fault := .value
  symbols := legacySymbols
  checkedPart := grammarPrefix
  symbolCode := "KV1006"
  symbolMessage := fun symbol =>
    "legacy punctuation " ++ host.repr symbol ++ " is not native value grammar"
  symbolColumn := fun _ _ => 1
  name := valueName host
  term := valueTerm host
  clauseCode := "KV1005"
  needsTerm := "witness requires identity and term"
  duplicateCode := "KV1101"
  duplicate := fun name => "duplicate witness identity " ++ host.repr name
  tooManyCode := "KV1102"
  tooMany := "value graph exceeds 4096 witnesses"
  resolveCode := "KV1103"
  oneResolve := "value graph must contain exactly one resolve"
  emptyCode := "KV1104"
  noWitness := "value graph must contain at least one witness"
  legacyWords := legacyWords
  legacyWord := fun head => "legacy grammar word " ++ host.repr head ++ " is rejected"
  unknownClause := fun head => "unknown native value clause " ++ host.repr head

/-- The errors of `dependency_order_value_graph`. -/
def valueOrderTexts (host : Host) : OrderTexts where
  fault := .value
  unknownCode := "KV1105"
  unknownResolve := fun name => "resolve references unknown witness " ++ host.repr name
  unknownDependency := fun name dependency =>
    "witness " ++ host.repr name ++ " references unknown witness " ++ host.repr dependency
  cycleCode := "KV1106"
  cycle := fun path => "value graph contains a cycle: " ++ path
  dormantCode := "KV1107"
  dormant := fun names =>
    "value graph contains dormant witnesses outside resolved reality: " ++ names

/-- `dependency_order_value_graph`. -/
def dependencyOrderValueGraph (host : Host) (graph : Graph NativeValue) : Checked (List String) :=
  orderOf (valueOrderTexts host) graph

/-- `parse_native_value_graph`. -/
def parseNativeValueGraph (host : Host) (source : String) : Checked (Graph NativeValue) := do
  let lines ← canonicalLines host source
  (valueGrammar host).parse (dependencyOrderValueGraph host) lines

/-! ## Operations -/

/-- What an evaluator says about the operands and the result of an operation. -/
structure OperationTexts where
  coercion : String → Nat → Fault
  overflow : String → Nat → Fault
  crossDomain : Nat → Fault
  textual : Nat → Fault
  budget : Nat → Fault
  unknown : String → Nat → Fault

/-- An operation of an evaluator that joins texts in a way. -/
def operate (texts : OperationTexts) (joined : String → String → String) (line : Nat)
    (operation : String) (left right : NativeValue) : Checked NativeValue :=
  match arithmetic operation with
  | some compute =>
    match left, right with
    | .whole first, .whole second => do
      let result := compute first second
      raiseIf (¬ Int64 result) (texts.overflow operation line)
      .ok (.whole result)
    | _, _ => .error (texts.coercion operation line)
  | none =>
    if operation = "same" then do
      raiseIf (left.domain ≠ right.domain) (texts.crossDomain line)
      .ok (.truth (left == right))
    else if operation = "merge" then
      match left, right with
      | .glyphs first, .glyphs second => do
        let merged := joined first second
        raiseIf (maxGlyphsResultBytes < byteLength merged) (texts.budget line)
        .ok (.glyphs merged)
      | _, _ => .error (texts.textual line)
    else .error (texts.unknown operation line)

/-- What the operations mean, when texts are joined in a way. -/
def valueMeaning (joined : String → String → String) : Meaning NativeValue := fun operation operands =>
  match arithmetic operation, operands with
  | some compute, [.whole first, .whole second] =>
    if Int64 (compute first second) then some (.whole (compute first second)) else none
  | none, [left, right] =>
    if operation = "same" then
      if left.domain = right.domain then some (.truth (left == right)) else none
    else if operation = "merge" then
      match left, right with
      | .glyphs first, .glyphs second =>
        if byteLength (joined first second) ≤ maxGlyphsResultBytes then
          some (.glyphs (joined first second))
        else none
      | _, _ => none
    else none
  | _, _ => none

/-- A value that is a signed 64-bit number, if it is a number. -/
def NativeValue.Bounded : NativeValue → Prop
  | .whole value => Int64 value
  | .truth _ => True
  | .glyphs _ => True

theorem bind_raiseIf_iff {α : Type} {condition : Prop} [Decidable condition] {fault : Fault}
    {made value : α} : (do raiseIf condition fault; (.ok made : Checked α)) = .ok value ↔
      ¬ condition ∧ made = value := by
  by_cases holds : condition
  · constructor
    · intro ran
      obtain ⟨_, passed, -⟩ := bind_eq_ok ran
      exact absurd holds (raiseIf_eq_ok passed)
    · exact fun both => absurd holds both.1
  · rw [bind_raiseIf holds]
    constructor
    · intro ran
      cases ran
      exact ⟨holds, rfl⟩
    · rintro ⟨-, rfl⟩
      rfl

variable {joined : String → String → String} {line : Nat} {operation : String} {value : NativeValue}

theorem operate_eq_ok {texts : OperationTexts} {left right : NativeValue} :
    operate texts joined line operation left right = .ok value ↔
      valueMeaning joined operation [left, right] = some value := by
  unfold operate valueMeaning
  dsimp only
  cases arithmetic operation with
  | some compute =>
    cases left <;> cases right <;> try simp only [reduceCtorEq]
    exact bind_raiseIf_iff.trans (by simp)
  | none =>
    dsimp only
    by_cases isSame : operation = "same"
    · rw [if_pos isSame, if_pos isSame]
      exact bind_raiseIf_iff.trans (by simp)
    · rw [if_neg isSame, if_neg isSame]
      by_cases isMerge : operation = "merge"
      · rw [if_pos isMerge, if_pos isMerge]
        cases left <;> cases right <;> try simp only [reduceCtorEq]
        exact bind_raiseIf_iff.trans (by simp)
      · rw [if_neg isMerge, if_neg isMerge]
        simp

theorem valueMeaning_bounded {operands : List NativeValue}
    (means : valueMeaning joined operation operands = some value) : value.Bounded := by
  unfold valueMeaning at means
  split at means
  · split at means
    · cases means
      assumption
    · cases means
  · split at means
    · split at means
      · cases means
        trivial
      · cases means
    · split at means
      · split at means
        · split at means
          · cases means
            trivial
          · cases means
        · cases means
      · cases means
  · cases means

/-! ## What is read -/

section Reading

variable {host : Host}

theorem valueName_eq_ok {token name : String} {number : Nat}
    (read : valueName host token number = .ok name) : name = token ∧ isName token = true := by
  obtain ⟨_, -, read⟩ := bind_eq_ok read
  obtain ⟨_, -, read⟩ := bind_eq_ok read
  obtain ⟨_, isToken, read⟩ := bind_eq_ok read
  cases read
  exact ⟨rfl, eq_true_of_ne_false (raiseIf_eq_ok isToken)⟩

theorem valueName_lineless (token : String) : Lineless (valueName host token) :=
  (Lineless.raiseIf _ _).bind fun _ => (Lineless.raiseIf _ _).bind fun _ =>
    (Lineless.raiseIf _ _).bind fun _ => .ok token

theorem plainAtom_lineless (token : String) : Lineless (plainAtom host token) := by
  unfold plainAtom
  split
  · exact (Lineless.raiseIf _ _).bind fun _ => (Lineless.raiseIf _ _).bind fun _ => .ok _
  · exact (valueName_lineless token).bind fun name => .ok _

theorem glyphsTerm_lineless (tokens : List String) : Lineless (glyphsTerm host tokens) := by
  unfold glyphsTerm
  split
  · exact .error _
  · exact (Lineless.raiseIf _ _).bind fun _ => (Lineless.raiseIf _ _).bind fun _ =>
      (Lineless.raiseIf _ _).bind fun _ => (Lineless.raiseIf _ _).bind fun _ =>
        (Lineless.raiseIf _ _).bind fun _ => (Lineless.raiseIf _ _).bind fun _ => .ok _

theorem valueTerm_lineless (tokens : List String) : Lineless (valueTerm host tokens) := by
  unfold valueTerm
  split
  · split
    · split
      · exact .ok _
      · exact .error _
    · exact .error _
  · split
    · exact glyphsTerm_lineless _
    · split
      · exact .error _
      · exact (plainAtom_lineless _).bind fun atom => .ok _
      · split
        · exact (plainAtom_lineless _).bind fun left => (plainAtom_lineless _).bind fun right => .ok _
        · exact .error _
      · exact .error _

theorem valueGrammar_uniform : (valueGrammar host).Uniform :=
  ⟨valueName_lineless, valueTerm_lineless⟩

/-- Terms of value graphs: one or two atoms, and numbers in range. -/
structure ValueTerm (term : Term NativeValue) : Prop where
  binary : Binary term
  literals : ∀ value, Atom.literal value ∈ term.atoms → value.Bounded

theorem plainAtom_literal {token : String}
    (read : plainAtom host token line = .ok (.literal value)) : value.Bounded := by
  unfold plainAtom at read
  split at read
  · rename_i number
    obtain ⟨_, -, read⟩ := bind_eq_ok read
    obtain ⟨_, short, read⟩ := bind_eq_ok read
    cases read
    exact decimal_int64 number (raiseIf_eq_ok short)
  · obtain ⟨name, -, read⟩ := bind_eq_ok read
    cases read

theorem valueTerm_literal (bounded : value.Bounded) : ValueTerm ⟨none, [.literal value]⟩ :=
  ⟨.atom _, fun other inside => by
    cases mem_singleton.mp inside
    exact bounded⟩

theorem valueTerm_of_ok {tokens : List String} {term : Term NativeValue}
    (read : valueTerm host tokens line = .ok term) : ValueTerm term := by
  unfold valueTerm at read
  split at read
  · split at read
    · split at read
      · cases read
        exact valueTerm_literal trivial
      · cases read
    · cases read
  · split at read
    · unfold glyphsTerm at read
      split at read
      · cases read
      · obtain ⟨_, -, read⟩ := bind_eq_ok read
        iterate 5 obtain ⟨_, -, read⟩ := bind_eq_ok read
        cases read
        exact valueTerm_literal trivial
    · split at read
      · cases read
      · obtain ⟨atom, isAtom, read⟩ := bind_eq_ok read
        cases read
        refine ⟨.atom atom, fun value inside => ?_⟩
        rw [mem_singleton] at inside
        exact plainAtom_literal (inside ▸ isAtom)
      · split at read
        · obtain ⟨left, isLeft, read⟩ := bind_eq_ok read
          obtain ⟨right, isRight, read⟩ := bind_eq_ok read
          cases read
          refine ⟨.operation _ left right, fun value inside => ?_⟩
          rcases mem_cons.mp inside with same | inside
          · exact plainAtom_literal (same ▸ isLeft)
          · rw [mem_singleton] at inside
            exact plainAtom_literal (inside ▸ isRight)
        · cases read
      · cases read

theorem order_of_parseNativeValueGraph {source : String} {graph : Graph NativeValue}
    (parsed : parseNativeValueGraph host source = .ok graph) :
    (graph.witnesses.map Witness.name).Nodup ∧
      (∃ order, dependencyOrderValueGraph host graph = .ok order) ∧
      ∀ witness ∈ graph.witnesses, ValueTerm witness.term := by
  obtain ⟨lines, -, parsed⟩ := bind_eq_ok parsed
  have terms := Grammar.terms_of_parse valueGrammar_uniform (fun _ _ _ => valueTerm_of_ok) parsed
  obtain ⟨_, -, -, -, nodup, -, -, ordered⟩ := (Grammar.parse_eq_ok valueGrammar_uniform).mp parsed
  exact ⟨nodup, ordered, terms⟩

end Reading

end Koschei.Kernel
