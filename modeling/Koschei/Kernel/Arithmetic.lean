import Koschei.Kernel.Grammar
import Koschei.Kernel.Meaning

/-!
# The native kernel

`native_kernel_v1.py`: a closed graph of Int values in ASCII. A witness is a decimal
number, another witness, or a sum, difference or product of two of these; every
result is a signed 64-bit number.
-/

namespace Koschei.Kernel

open Lib

/-- `INT_MIN`. -/
def intMin : Int := -9223372036854775808

/-- `INT_MAX`. -/
def intMax : Int := 9223372036854775807

/-- A signed 64-bit number: `INT_MIN <= value <= INT_MAX`. -/
def Int64 (value : Int) : Prop := intMin ≤ value ∧ value ≤ intMax

instance (value : Int) : Decidable (Int64 value) :=
  inferInstanceAs (Decidable (intMin ≤ value ∧ value ≤ intMax))

/-- `MAX_NATIVE_SOURCE_BYTES`, `MAX_VALUE_SOURCE_BYTES`. -/
def maxSourceBytes : Nat := 1048576

/-- `_NATIVE_WORDS`. -/
def nativeWords : List String := ["witness", "resolve", "sum", "difference", "product"]

/-- `_OPERATIONS`. -/
def operations : List String := ["sum", "difference", "product"]

/-- `_LEGACY_DEBT_WORDS`. -/
def legacyDebtWords : List String :=
  ["pure", "stateful", "fn", "let", "mut", "or", "return", "if", "else", "while", "for", "in",
    "break", "continue", "struct", "enum", "match", "import", "true", "false"]

/-- `_LEGACY_DEBT_SYMBOLS`. -/
def legacyDebtSymbols : List String :=
  ["(", ")", "\x7b", "\x7d", "[", "]", ",", ":", ".", "=", "+", "-", "*", "/", "%", ";", "!", "<", ">",
    "->", "=>", "==", "!=", "<=", ">=", "&&", "||"]

/-- `_fail`. -/
def kernelFault (code message : String) (line column : Nat) : Fault :=
  .kernel ⟨code, message, line, column⟩

/-- How many lines end before the first character that is not ASCII, and one more. -/
def unicodeLine (source : String) : Nat :=
  (source.toList.takeWhile fun c => c.toNat < 128).count '\n' + 1

def indexOf (part line : List Char) : Nat := match line with
  | [] => 0
  | c :: rest => if part <+: c :: rest then 0 else indexOf part rest + 1

/-- The checks of one line in `_canonical_source`. -/
def checkLines : Nat → List String → Checked Unit
  | _, [] => .ok ()
  | number, line :: lines => do
    raiseIf (line ≠ stripped line ∨ Inside "  " line ∨ join ' ' (split ' ' line) ≠ line)
      (kernelFault "KN1003" "each native clause uses one ASCII space between tokens and no indentation/trailing space"
        number 1)
    checkLines (number + 1) lines

/-- `source[:-1].split("\n")`. -/
def sourceLines (source : String) : List String := split '\n' (ofList source.toList.dropLast)

/-- `_canonical_source`. -/
def canonicalSource (source : String) : Checked (List String) := do
  raiseIf ('\x00' ∈ source.toList) (kernelFault "KN1000" "NUL is forbidden in native source" 1 1)
  raiseIf (isAscii source = false)
    (kernelFault "KN1001" "native kernel v1 admits ASCII only; Unicode confusables and normalization aliases fail closed"
      (unicodeLine source) 1)
  raiseIf (maxSourceBytes < byteLength source)
    (kernelFault "KN1002" "native source exceeds 1048576 bytes" 1 1)
  raiseIf ('\r' ∈ source.toList ∨ '\t' ∈ source.toList)
    (kernelFault "KN1003" "native source requires LF newlines and forbids tabs" 1 1)
  raiseIf (¬ ['\n'] <:+ source.toList ∨ ['\n', '\n'] <:+ source.toList)
    (kernelFault "KN1003" "native source must end in exactly one LF" 1 1)
  let lines := sourceLines source
  raiseIf ("" ∈ lines)
    (kernelFault "KN1003" "blank clauses are not canonical in native kernel v1" 1 1)
  checkLines 1 lines
  .ok lines

/-- `_name`. -/
def kernelName (host : Host) (token : String) (line : Nat) : Checked String := do
  raiseIf (token ∈ nativeWords ∨ token ∈ legacyDebtWords)
    (kernelFault "KN1004" (host.repr token ++ " is reserved and cannot be a witness identity") line 1)
  raiseIf (isName token = false)
    (kernelFault "KN1004" "witness identity must be 1..64 bytes of lowercase ASCII letters/digits and start with a letter"
      line 1)
  .ok token

/-- `_atom`. -/
def kernelAtom (host : Host) (token : String) (line : Nat) : Checked (Atom Int) :=
  if isNumber token then do
    raiseIf (1 < token.length ∧ ['0'] <+: token.toList)
      (kernelFault "KN1200" "Int literal is non-canonical; leading-zero decimal aliases are forbidden" line 1)
    raiseIf (19 < token.length ∨ token.length = 19 ∧ "9223372036854775807" < token)
      (kernelFault "KN1201" "Int literal exceeds signed Int64 range" line 1)
    .ok (.literal (decimal token))
  else do
    let name ← kernelName host token line
    .ok (.witness name)

/-- `_term`. -/
def kernelTerm (host : Host) (tokens : List String) (line : Nat) : Checked (Term Int) :=
  match tokens with
  | [token] => do
    let atom ← kernelAtom host token line
    .ok ⟨none, [atom]⟩
  | [operation, first, second] =>
    if operation ∈ operations then do
      let left ← kernelAtom host first line
      let right ← kernelAtom host second line
      .ok ⟨some operation, [left, right]⟩
    else .error (kernelFault "KN1005"
      "witness term is either one atom or exactly: sum|difference|product <atom> <atom>" line 1)
  | _ => .error (kernelFault "KN1005"
      "witness term is either one atom or exactly: sum|difference|product <atom> <atom>" line 1)

/-- The clauses of `parse_native_kernel`. -/
def kernelGrammar (host : Host) : Grammar Int where
  fault := .kernel
  symbols := legacyDebtSymbols
  checkedPart := fun _ line => line
  symbolCode := "KN1006"
  symbolMessage := fun symbol =>
    "legacy punctuation " ++ host.repr symbol ++ " is not part of native kernel v1"
  symbolColumn := fun symbol line => indexOf symbol.toList line.toList + 1
  name := kernelName host
  term := kernelTerm host
  clauseCode := "KN1005"
  needsTerm := "witness requires an identity and term"
  duplicateCode := "KN1101"
  duplicate := fun name => "duplicate witness identity " ++ host.repr name
  tooManyCode := "KN1102"
  tooMany := "native graph exceeds 4096 witnesses"
  resolveCode := "KN1103"
  oneResolve := "native graph must contain exactly one resolve clause"
  emptyCode := "KN1104"
  noWitness := "native graph must contain at least one witness"
  legacyWords := legacyDebtWords
  legacyWord := fun head =>
    "legacy grammar word " ++ host.repr head ++ " is rejected by the native frontend"
  unknownClause := fun head => "unknown native clause " ++ host.repr head

/-- The errors of `dependency_order`. -/
def kernelOrderTexts (host : Host) : OrderTexts where
  fault := .kernel
  unknownCode := "KN1105"
  unknownResolve := fun name => "resolve references unknown witness " ++ host.repr name
  unknownDependency := fun name dependency =>
    "witness " ++ host.repr name ++ " references unknown witness " ++ host.repr dependency
  cycleCode := "KN1106"
  cycle := fun path => "native witness graph contains a cycle: " ++ path
  dormantCode := "KN1107"
  dormant := fun names =>
    "native object contains dormant witnesses outside the resolved reality: " ++ names

/-- `dependency_order`. -/
def dependencyOrder (host : Host) (kernel : Graph Int) : Checked (List String) := do
  raiseIf ((kernel.witnesses.map Witness.name).dedup.length ≠ kernel.witnesses.length)
    (kernelFault "KN1101" "native kernel contains duplicate witness identities" 1 1)
  orderOf (kernelOrderTexts host) kernel

/-- `parse_native_kernel`. -/
def parseNativeKernel (host : Host) (source : String) : Checked (Graph Int) := do
  let lines ← canonicalSource source
  (kernelGrammar host).parse (dependencyOrder host) lines

/-- `_checked_int`. -/
def checkedInt (value : Int) (operation : String) (line : Nat) : Checked Int := do
  raiseIf (¬ Int64 value)
    (kernelFault "KN1202" (operation ++ " exceeds signed Int64 reality") line 1)
  .ok value

/-- What the numeric operations compute. -/
def arithmetic (operation : String) : Option (Int → Int → Int) :=
  if operation = "sum" then some fun left right => left + right
  else if operation = "difference" then some fun left right => left - right
  else if operation = "product" then some fun left right => left * right
  else none

/-- An operation of `evaluate_native_kernel`. -/
def kernelOperation (host : Host) (witness : Witness Int) (operation : String) (left right : Int) :
    Checked Int :=
  match arithmetic operation with
  | some compute => checkedInt (compute left right) operation witness.line
  | none => .error (kernelFault "KN1005" ("unknown native operation " ++ host.repr operation)
      witness.line 1)

/-- The value of a witness in `evaluate_native_kernel`. -/
def kernelValue (host : Host) : Witness Int → (String → Option Int) → Checked Int :=
  termValue (kernelOperation host)

/-- `evaluate_native_kernel`. -/
def evaluateNativeKernel (host : Host) (kernel : Graph Int) : Checked Int := do
  let order ← dependencyOrder host kernel
  let values ← valuesIn (kernelValue host) kernel.witnesses order
  match values.lookup kernel.resolve with
  | some value => .ok value
  | none => .error .key

/-! ## What is read -/

/-- A number that is not too long is a signed 64-bit number. -/
theorem decimal_int64 {token : String} (number : isNumber token = true)
    (short : ¬ (19 < token.length ∨ token.length = 19 ∧ "9223372036854775807" < token)) :
    Int64 (decimal token) := by
  have digits : ∀ c ∈ token.toList, c.isDigit = true := by
    unfold isNumber at number
    rw [and_eq_true] at number
    exact all_eq_true.mp number.2
  have length : token.toList.length = token.length := length_toList
  rw [not_or, not_and] at short
  have bounded : decimal token ≤ 9223372036854775807 := by
    rcases Nat.lt_or_eq_of_le (Nat.not_lt.mp short.1) with shorter | equal
    · have small : decimal token < (0 + 1) * 10 ^ token.toList.length := readDigits_lt_pow digits
      have power : (10 : Nat) ^ token.toList.length ≤ 10 ^ 18 :=
        Nat.pow_le_pow_right (by omega) (by omega)
      have ten : (10 : Nat) ^ 18 = 1000000000000000000 := rfl
      omega
    · have lengths : token.toList.length = "9223372036854775807".toList.length := by
        rw [length, equal]
        rfl
      have at_most : decimal token ≤ decimal "9223372036854775807" :=
        readDigits_le lengths digits (short.2 equal)
      exact at_most.trans (by decide)
  unfold Int64 intMin intMax
  omega

section Reading

variable {host : Host}

theorem kernelName_eq_ok {token name : String} {number : Nat}
    (read : kernelName host token number = .ok name) : name = token ∧ isName token = true := by
  obtain ⟨_, -, read⟩ := bind_eq_ok read
  obtain ⟨_, isToken, read⟩ := bind_eq_ok read
  cases read
  exact ⟨rfl, eq_true_of_ne_false (raiseIf_eq_ok isToken)⟩

theorem kernelName_lineless (token : String) : Lineless (kernelName host token) :=
  (Lineless.raiseIf _ _).bind fun _ => (Lineless.raiseIf _ _).bind fun _ => .ok token

theorem kernelAtom_lineless (token : String) : Lineless (kernelAtom host token) := by
  unfold kernelAtom
  split
  · exact (Lineless.raiseIf _ _).bind fun _ => (Lineless.raiseIf _ _).bind fun _ => .ok _
  · exact (kernelName_lineless token).bind fun name => .ok _

theorem kernelTerm_lineless (tokens : List String) : Lineless (kernelTerm host tokens) := by
  unfold kernelTerm
  split
  · exact (kernelAtom_lineless _).bind fun atom => .ok _
  · split
    · exact (kernelAtom_lineless _).bind fun left => (kernelAtom_lineless _).bind fun right => .ok _
    · exact .error _
  · exact .error _

/-- Terms of the kernel: one or two atoms, an operation of the kernel, and numbers in range. -/
structure KernelTerm (term : Term Int) : Prop where
  binary : Binary term
  operation : ∀ operation, term.operation = some operation → operation ∈ operations
  literals : ∀ value, Atom.literal value ∈ term.atoms → Int64 value

theorem kernelAtom_literal {token : String} {line : Nat} {value : Int}
    (read : kernelAtom host token line = .ok (.literal value)) : Int64 value := by
  unfold kernelAtom at read
  split at read
  · rename_i number
    obtain ⟨_, -, read⟩ := bind_eq_ok read
    obtain ⟨_, short, read⟩ := bind_eq_ok read
    cases read
    exact decimal_int64 number (raiseIf_eq_ok short)
  · obtain ⟨name, -, read⟩ := bind_eq_ok read
    cases read

theorem kernelTerm_of_ok {tokens : List String} {line : Nat} {term : Term Int}
    (read : kernelTerm host tokens line = .ok term) : KernelTerm term := by
  unfold kernelTerm at read
  split at read
  · obtain ⟨atom, isAtom, read⟩ := bind_eq_ok read
    cases read
    refine ⟨.atom atom, (fun _ impossible => by cases impossible), fun value inside => ?_⟩
    rw [mem_singleton] at inside
    exact kernelAtom_literal (inside ▸ isAtom)
  · split at read
    · rename_i known
      obtain ⟨left, isLeft, read⟩ := bind_eq_ok read
      obtain ⟨right, isRight, read⟩ := bind_eq_ok read
      cases read
      refine ⟨.operation _ left right, fun operation same => ?_, fun value inside => ?_⟩
      · cases same
        exact known
      · rcases mem_cons.mp inside with same | inside
        · exact kernelAtom_literal (same ▸ isLeft)
        · rw [mem_singleton] at inside
          exact kernelAtom_literal (inside ▸ isRight)
    · cases read
  · cases read

theorem kernelGrammar_uniform : (kernelGrammar host).Uniform :=
  ⟨kernelName_lineless, kernelTerm_lineless⟩

theorem dependencyOrder_eq_ok {kernel : Graph Int} {order : List String} :
    dependencyOrder host kernel = .ok order ↔ (kernel.witnesses.map Witness.name).Nodup ∧
        orderOf (kernelOrderTexts host) kernel = .ok order := by
  have distinct : (kernel.witnesses.map Witness.name).dedup.length = kernel.witnesses.length ↔
      (kernel.witnesses.map Witness.name).Nodup := by
    constructor
    · intro lengths
      have whole := (List.dedup_sublist (kernel.witnesses.map Witness.name)).eq_of_length
        (by rw [lengths, length_map])
      exact List.dedup_eq_self.mp whole
    · intro nodup
      rw [List.dedup_eq_self.mpr nodup, length_map]
  unfold dependencyOrder
  constructor
  · intro ran
    obtain ⟨_, unique, ran⟩ := bind_eq_ok ran
    exact ⟨distinct.mp (not_not.mp (raiseIf_eq_ok unique)), ran⟩
  · rintro ⟨nodup, ran⟩
    rw [bind_raiseIf (not_not.mpr (distinct.mpr nodup))]
    exact ran

end Reading

end Koschei.Kernel
