import Koschei.Lexing.Literals

/-!
# String literals of the generated program

`_go_string` writes every text of a program as an interpreted string literal of Go. It escapes
five characters. Go takes the others as they stand, all but two: a text with NUL or a byte order
mark is no Go source. No text closes its literal early.
-/

namespace Koschei.Literals

/-! ## Interpreted string literals of Go -/

/-- Characters that a Go source may not hold behind its start: NUL and the byte order mark. -/
def forbidden (c : Char) : Bool := c = '\x00' || c = '\uFEFF'

/-- The escapes of one character. -/
def simpleEscape : Char → Option Char
  | 'a' => some '\x07'
  | 'b' => some '\x08'
  | 'f' => some '\x0C'
  | 'n' => some '\n'
  | 'r' => some '\r'
  | 't' => some '\t'
  | 'v' => some '\x0B'
  | '\\' => some '\\'
  | '"' => some '"'
  | _ => none

/-- The UTF-8 encoding of a character. -/
def utf8 (c : Char) : ByteArray := (String.singleton c).toUTF8

def digitValue (c : Char) : Option Nat :=
  if c.isDigit then some (c.toNat - 48)
  else if 'a' ≤ c ∧ c ≤ 'f' then some (c.toNat - 87)
  else if 'A' ≤ c ∧ c ≤ 'F' then some (c.toNat - 55)
  else none

/-- The number that `count` digits of the base write. -/
def escapeNumber (base count : Nat) (text : List Char) : Option Nat :=
  if text.length < count then none
  else (text.take count).foldlM (fun number c => do
    let digit ← digitValue c
    if digit < base then some (base * number + digit) else none) 0

/-- The byte of `\x` and of octal escapes. -/
def byteEscape (number : Nat) : Option ByteArray :=
  if number ≤ 255 then some ⟨#[number.toUInt8]⟩ else none

/-- The character of `\u` and `\U`, which is no surrogate. -/
def runeEscape (number : Nat) : Option ByteArray :=
  if number.isValidChar then some (utf8 (.ofNat number)) else none

/-- An escape sequence behind its backslash: its bytes and the number of its characters. -/
def scanEscape : List Char → Option (ByteArray × Nat)
  | [] => none
  | c :: rest =>
    if c = 'x' then ((escapeNumber 16 2 rest).bind byteEscape).map (·, 3)
    else if c = 'u' then ((escapeNumber 16 4 rest).bind runeEscape).map (·, 5)
    else if c = 'U' then ((escapeNumber 16 8 rest).bind runeEscape).map (·, 9)
    else match simpleEscape c with
      | some escaped => some (utf8 escaped, 1)
      | none => ((escapeNumber 8 3 (c :: rest)).bind byteEscape).map (·, 3)

/-- A literal behind its quotation mark: its value, and the source behind the literal. -/
def scanBody : List Char → Option (ByteArray × List Char)
  | [] => none
  | c :: rest =>
    if c = '"' then some (.empty, rest)
    else if c = '\n' || forbidden c then none
    else if c = '\\' then
      match scanEscape rest with
      | none => none
      | some (bytes, read) =>
        (scanBody (rest.drop read)).map fun (value, rest) => (bytes ++ value, rest)
    else (scanBody rest).map fun (value, rest) => (utf8 c ++ value, rest)
  termination_by text => text.length
  decreasing_by all_goals simp +arith

/-- An interpreted string literal at the head of a source. -/
def scanLiteral : List Char → Option (ByteArray × List Char)
  | '"' :: rest => scanBody rest
  | _ => none

/-! ## The generator -/

/-- `str.replace` of one character. -/
def replaced (old : Char) (new : List Char) (text : List Char) : List Char :=
  text.flatMap fun c => if c = old then new else [c]

/-- The chain of replacements of `_go_string`. -/
def goEscaped (text : List Char) : List Char :=
  replaced '\t' ['\\', 't'] <| replaced '\r' ['\\', 'r'] <| replaced '\n' ['\\', 'n'] <|
    replaced '"' ['\\', '"'] <| replaced '\\' ['\\', '\\'] text

/-- `_go_string`. -/
def goString (value : String) : String := String.ofList ('"' :: goEscaped value.toList ++ ['"'])

theorem replaced_append (old : Char) (new first second : List Char) :
    replaced old new (first ++ second) = replaced old new first ++ replaced old new second :=
  List.flatMap_append

theorem replaced_ne {old c : Char} (other : c ≠ old) (new : List Char) :
    replaced old new [c] = [c] := by
  simp [replaced, other]

/-- The replacements work on every character alone, in spite of their order. -/
theorem goEscaped_cons (c : Char) (text : List Char) :
    goEscaped (c :: text) = goEscaped [c] ++ goEscaped text := by
  rw [show c :: text = [c] ++ text from rfl]
  unfold goEscaped
  simp only [replaced_append]

/-- Go reads a character back from what `_go_string` writes for it. -/
theorem scanBody_goEscaped (c : Char) (rest : List Char) :
    scanBody (goEscaped [c] ++ rest) =
      if forbidden c then none
      else (scanBody rest).map fun (value, rest) => (utf8 c ++ value, rest) := by
  by_cases special : c ∈ ['\\', '"', '\n', '\r', '\t']
  · simp only [mem_cons, not_mem_nil, or_false] at special
    rcases special with rfl | rfl | rfl | rfl | rfl <;>
      · show scanBody ('\\' :: _ :: rest) = _
        rw [scanBody]
        rfl
  · simp only [mem_cons, not_mem_nil, or_false, not_or] at special
    obtain ⟨backslash, mark, line, carriage, tab⟩ := special
    have same : goEscaped [c] = [c] := by
      simp only [goEscaped, replaced_ne, backslash, mark, line, carriage, tab, ne_eq,
        not_false_eq_true]
    rw [same, singleton_append, scanBody, if_neg mark]
    by_cases refused : forbidden c = true
    · simp [refused]
    · simp [refused, line, backslash]

/-- Go reads the text back, or it refuses the source for a forbidden character. -/
theorem scanBody_text (text rest : List Char) :
    scanBody (goEscaped text ++ '"' :: rest) =
      if text.any forbidden then none else some (text.utf8Encode, rest) := by
  induction text with
  | nil => simp [goEscaped, replaced, scanBody]
  | cons c text ih =>
    rw [goEscaped_cons, List.append_assoc, scanBody_goEscaped, ih, List.any_cons]
    by_cases refused : forbidden c = true
    · simp [refused]
    · have bytes : (c :: text).utf8Encode = utf8 c ++ text.utf8Encode := by
        rw [List.utf8Encode_cons, utf8, String.toUTF8_eq_toByteArray, String.toByteArray_singleton]
      by_cases later : text.any forbidden = true <;> simp [refused, later, bytes]

theorem scanLiteral_goString (value : String) (rest : List Char) :
    scanLiteral ((goString value).toList ++ rest) =
      if value.toList.any forbidden then none else some (value.toByteArray, rest) := by
  rw [goString, String.toList_ofList, List.append_assoc, List.cons_append]
  show scanBody (goEscaped value.toList ++ '"' :: rest) = _
  rw [scanBody_text, String.utf8Encode_toList]

/-! ## What a literal can hold -/

/-- A literal of the text, behind its opening quotation mark. -/
def written (text : List Char) : List Char := escape text ++ ['"']

theorem readString_written (text read rest : List Char) :
    readString [] read (written text ++ rest) = .ok (.string (ofList (read ++ text)), rest) := by
  rw [written, append_assoc, singleton_append, readString_text, tokenOf_flushText]

/-- Every text is the text of a literal. Go reads it back from what `_go_string` writes for
it, up to the closing mark and no further, if it holds neither NUL nor a byte order mark;
otherwise Go refuses the source, and never takes the text for anything else. -/
theorem goString_denotes_iff (value : String) :
    (∃ source, ∀ rest, readString [] [] (source ++ rest) = .ok (.string value, rest)) ∧
    ((∀ rest, scanLiteral ((goString value).toList ++ rest) = some (value.toByteArray, rest)) ↔
      '\x00' ∉ value.toList ∧ '\uFEFF' ∉ value.toList) ∧
    (∀ rest, scanLiteral ((goString value).toList ++ rest) = some (value.toByteArray, rest) ∨
      scanLiteral ((goString value).toList ++ rest) = none) := by
  have clean : value.toList.any forbidden = false ↔
      '\x00' ∉ value.toList ∧ '\uFEFF' ∉ value.toList := by
    simp only [List.any_eq_false, forbidden, Bool.or_eq_true, decide_eq_true_eq, not_or]
    exact ⟨fun all => ⟨fun inside => (all _ inside).1 rfl, fun inside => (all _ inside).2 rfl⟩,
      fun ⟨nul, mark⟩ c inside => ⟨fun same => nul (same ▸ inside), fun same => mark (same ▸ inside)⟩⟩
  refine ⟨⟨written value.toList, fun rest => ?_⟩, ?_, fun rest => ?_⟩
  · rw [readString_written, List.nil_append, String.ofList_toList]
  · simp only [scanLiteral_goString, ← clean]
    cases value.toList.any forbidden <;> simp
  · rw [scanLiteral_goString]
    cases value.toList.any forbidden <;> simp

/-- A literal with NUL in it is a text of Koschei, and Go refuses what is written for it. -/
theorem goString_nul :
    (∃ source rest, readString [] [] source = .ok (.string "\x00", rest)) ∧
      ¬ ∀ rest, scanLiteral ((goString "\x00").toList ++ rest) =
        some ("\x00".toByteArray, rest) := by
  refine ⟨⟨['\x00', '"'], [], ?_⟩, fun denotes => ?_⟩
  · simp [readString, flushText, tokenOf]
  · have refused := denotes []
    rw [scanLiteral_goString] at refused
    cases refused

end Koschei.Literals
