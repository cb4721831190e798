import Koschei.Lib.Trimming
import Koschei.Types.Text

/-!
# Literals and their renderings

How the lexer reads the texts and interpolations of literals, and how the formatter writes
their tokens. What it writes is read back as the token it was written for: the escapes of
texts are undone, and the source of an expression, stripped when it was read, is closed by
the brace that closed it before.
-/

namespace Koschei.Literals

open Lib

/-! ## The lexer -/

/-- A segment of a literal: a text, or the source of an expression. -/
inductive Segment where
  | text (value : String)
  | expr (source : String)

/-- `STRING` and `STRING_INTERP`. -/
inductive StringToken where
  | string (value : String)
  | stringInterp (segments : List Segment)

/-- `ESCAPES`. -/
def escapes : Char → Option Char
  | 'n' => some '\n'
  | 'r' => some '\r'
  | 't' => some '\t'
  | '"' => some '"'
  | '\\' => some '\\'
  | '\x7b' => some '\x7b'
  | '\x7d' => some '\x7d'
  | _ => none

/-- `_interpolation_expression`, behind the characters it has read. -/
def interpolationExpression (depth : Nat) (inString escaped : Bool) (expression : List Char) :
    List Char → Except String (List Char × List Char)
  | [] => .error "İnterpolasyon '\x7d' ile kapatılmalıdır."
  | char :: rest =>
    let expression' := expression ++ [char]
    if inString then
      if escaped then interpolationExpression depth true false expression' rest
      else if char = '\\' then interpolationExpression depth true true expression' rest
      else if char = '"' then interpolationExpression depth false false expression' rest
      else if char = '\n' then .error "İnterpolasyon içindeki metin satır sonuna taşamaz."
      else interpolationExpression depth true false expression' rest
    else if char = '"' then interpolationExpression depth true escaped expression' rest
    else if char = '\x7b' then interpolationExpression (depth + 1) false escaped expression' rest
    else if char = '\x7d' then
      if depth - 1 = 0 then .ok (strip expression, rest)
      else interpolationExpression (depth - 1) false escaped expression' rest
    else if char = '\n' then .error "İnterpolasyon '\x7d' ile aynı satırda kapatılmalıdır."
    else interpolationExpression depth false escaped expression' rest

variable {expression : List Char}

theorem interpolationExpression_shorter {depth : Nat} {inString escaped : Bool}
    {text expression' rest : List Char}
    (read : interpolationExpression depth inString escaped expression text =
      .ok (expression', rest)) : rest.length < text.length := by
  induction text generalizing depth inString escaped expression with
  | nil => cases read
  | cons char text ih =>
    simp only [interpolationExpression] at read
    repeat' split at read
    all_goals first
      | exact Nat.lt_succ_of_lt (ih read)
      | cases read; done
      | cases read; exact Nat.lt_succ_self _

/-- `flush_text`. -/
def flushText (segments : List Segment) (textParts : List Char) : List Segment :=
  if textParts = [] then segments else segments ++ [.text (ofList textParts)]

/-- The token of the segments of a closed literal. -/
def tokenOf : List Segment → StringToken
  | [] => .string ""
  | [.text value] => .string value
  | segments => .stringInterp segments

/-- `_string`, behind the opening quotation mark. -/
def readString (segments : List Segment) (textParts : List Char) :
    List Char → Except String (StringToken × List Char)
  | [] => .error "Kapatılmamış metin değeri."
  | char :: rest =>
    if char = '"' then .ok (tokenOf (flushText segments textParts), rest)
    else if char = '\\' then
      match rest with
      | [] => .error "Tamamlanmamış kaçış dizisi."
      | escaped :: rest =>
        match escapes escaped with
        | none => .error ("Geçersiz kaçış dizisi: \\" ++ String.singleton escaped)
        | some escaped => readString segments (textParts ++ [escaped]) rest
    else if char = '\x7b' then
      match read : interpolationExpression 1 false false [] rest with
      | .error message => .error message
      | .ok (expression, after) =>
        if expression = [] then .error "Boş interpolasyon: '\x7b\x7d' geçersizdir."
        else
          have := interpolationExpression_shorter read
          readString (flushText segments textParts ++ [.expr (String.ofList expression)]) [] after
    else if char = '\x7d' then .error "Metin içinde tek '\x7d' geçersizdir; '\\\x7d' kullanın."
    else readString segments (textParts ++ [char]) rest
  termination_by text => text.length

/-! ## The formatter -/

/-- `_escape`, with the `ESCAPES` of the formatter. -/
def escape (value : List Char) : List Char :=
  value.flatMap fun character => match character with
    | '\\' => ['\\', '\\']
    | '"' => ['\\', '"']
    | '\n' => ['\\', 'n']
    | '\r' => ['\\', 'r']
    | '\t' => ['\\', 't']
    | '\x7b' => ['\\', '\x7b']
    | '\x7d' => ['\\', '\x7d']
    | _ => [character]

/-- `_render_interpolation`. -/
def renderInterpolation (segments : List Segment) : List Char :=
  segments.flatMap fun
    | .text content => escape content.toList
    | .expr content => '\x7b' :: content.toList ++ ['\x7d']

/-- `_render_token`, of literals. -/
def renderToken : StringToken → String
  | .string value => ofList ('"' :: escape value.toList ++ ['"'])
  | .stringInterp segments => ofList ('"' :: renderInterpolation segments ++ ['"'])

/-! ## Expressions are read back -/

/-- One round of `_interpolation_expression`, unless it ends there: the depth, and whether a
text is open and a character of it escaped. -/
def next : Nat × Bool × Bool → Char → Option (Nat × Bool × Bool)
  | (depth, true, true), _ => some (depth, true, false)
  | (depth, true, false), char =>
    if char = '\\' then some (depth, true, true)
    else if char = '"' then some (depth, false, false)
    else if char = '\n' then none
    else some (depth, true, false)
  | (depth, false, escaped), char =>
    if char = '"' then some (depth, true, escaped)
    else if char = '\x7b' then some (depth + 1, false, escaped)
    else if char = '\x7d' then
      if depth - 1 = 0 then none else some (depth - 1, false, escaped)
    else if char = '\n' then none
    else some (depth, false, escaped)

section

variable {char : Char} {text rest acc : List Char} {depth depth' : Nat}
  {inString escaped escaped' : Bool} {state state' : Nat × Bool × Bool}

theorem interpolationExpression_next (moves : next (depth, inString, escaped) char = some state')
    (acc text : List Char) : interpolationExpression depth inString escaped acc (char :: text) =
      interpolationExpression state'.1 state'.2.1 state'.2.2 (acc ++ [char]) text := by
  cases inString <;> cases escaped <;> simp only [next] at moves <;> repeat' split at moves
  all_goals cases moves <;> simp_all [interpolationExpression]

theorem interpolationExpression_stop (stops : next (depth, inString, escaped) char = none)
    {found : List Char × List Char}
    (read : interpolationExpression depth inString escaped acc (char :: text) = .ok found) :
    inString = false ∧ char = '\x7d' ∧ depth - 1 = 0 ∧ found = (strip acc, text) := by
  cases inString <;> cases escaped <;> simp only [next] at stops <;> repeat' split at stops
  all_goals simp_all [interpolationExpression]

/-- What closes an expression: its text stands at depth one, outside the texts in it. -/
def Closes (state : Nat × Bool × Bool) (expression : List Char) : Prop :=
  ∃ depth escaped, expression.foldlM next state = some (depth, false, escaped) ∧ depth - 1 = 0

theorem exists_closes {found : List Char}
    (read : interpolationExpression depth inString escaped acc text = .ok (found, rest)) :
    ∃ expression, text = expression ++ '\x7d' :: rest ∧ found = strip (acc ++ expression) ∧
      Closes (depth, inString, escaped) expression := by
  induction text generalizing depth inString escaped acc with
  | nil => cases read
  | cons char text ih =>
    cases step : next (depth, inString, escaped) char with
    | none =>
      obtain ⟨rfl, rfl, level, same⟩ := interpolationExpression_stop step read
      cases same
      exact ⟨[], rfl, by rw [append_nil], depth, escaped, rfl, level⟩
    | some state =>
      rw [interpolationExpression_next step] at read
      obtain ⟨expression, rfl, rfl, depth', escaped', run, level⟩ := ih read
      refine ⟨char :: expression, rfl, by rw [append_assoc]; rfl, depth', escaped', ?_, level⟩
      rw [foldlM_cons, step]
      exact run

theorem interpolationExpression_of_closes
    (closes : Closes (depth, inString, escaped) expression) (acc rest : List Char) :
    interpolationExpression depth inString escaped acc (expression ++ '\x7d' :: rest) =
      .ok (strip (acc ++ expression), rest) := by
  obtain ⟨depth', escaped', run, level⟩ := closes
  induction expression generalizing depth inString escaped acc with
  | nil =>
    cases run
    simp [interpolationExpression, level]
  | cons char expression ih =>
    rw [foldlM_cons] at run
    obtain ⟨⟨_, _, _⟩, step, run⟩ := bind_eq_some_iff.mp run
    rw [cons_append, interpolationExpression_next step, ih _ run, append_assoc]
    rfl

theorem next_space (space : isSpace char = true) (moves : next state char = some state') :
    state'.2.1 = state.2.1 ∧ (state.2.1 = false → state' = state) := by
  obtain ⟨depth, inString, escaped⟩ := state
  have others : char ≠ '"' ∧ char ≠ '\\' ∧ char ≠ '\x7b' ∧ char ≠ '\x7d' := by
    refine ⟨?_, ?_, ?_, ?_⟩ <;>
      · rintro rfl
        cases space
  cases inString <;> cases escaped <;> simp [next, others] at moves <;> grind

/-- White space leaves the reader where it is, outside the texts and inside them. -/
theorem next_spaces {spaces : List Char} (all : ∀ c ∈ spaces, isSpace c = true)
    (run : spaces.foldlM next state = some state') :
    state'.2.1 = state.2.1 ∧ (state.2.1 = false → state' = state) := by
  induction spaces generalizing state with
  | nil =>
    cases run
    exact ⟨rfl, fun _ => rfl⟩
  | cons char spaces ih =>
    rw [foldlM_cons] at run
    obtain ⟨between, step, run⟩ := bind_eq_some_iff.mp run
    obtain ⟨first, fixed⟩ := next_space (all char mem_cons_self) step
    obtain ⟨later, fixed'⟩ := ih (forall_mem_cons.mp all).2 run
    refine ⟨later.trans first, fun outside => ?_⟩
    rw [fixed' (first.trans outside), fixed outside]

theorem Closes.strip (closes : Closes (1, false, escaped) expression) :
    Closes (1, false, escaped) (strip expression) := by
  obtain ⟨before, after, front, back, parts⟩ := exists_trim isSpace expression
  obtain ⟨depth, escaped', run, level⟩ := closes
  rw [parts, append_assoc, List.foldlM_append] at run
  obtain ⟨start, begun, run⟩ := bind_eq_some_iff.mp run
  rw [List.foldlM_append] at run
  obtain ⟨between, inside, ended⟩ := bind_eq_some_iff.mp run
  rw [(next_spaces front begun).2 rfl] at inside
  have outside := next_spaces back ended
  have same := outside.2 outside.1.symm
  exact ⟨depth, escaped', same ▸ inside, level⟩

/-! ## Literals are read back -/

variable {segments : List Segment} {textParts : List Char} {token : StringToken}

theorem escape_append (first second : List Char) :
    escape (first ++ second) = escape first ++ escape second :=
  List.flatMap_append

theorem readString_escape (char : Char) (rest : List Char) :
    readString segments textParts (escape [char] ++ rest) =
      readString segments (textParts ++ [char]) rest := by
  rw [escape, flatMap_cons, List.flatMap_nil, append_nil]
  split
  case h_8 backslash mark _ _ _ opening closing =>
    rw [singleton_append, readString.eq_def]
    simp only [if_neg mark, if_neg backslash, if_neg opening, if_neg closing]
  all_goals
    rw [cons_append, readString.eq_def]
    rfl

theorem readString_text (text rest : List Char) :
    readString segments textParts (escape text ++ '"' :: rest) =
      .ok (tokenOf (flushText segments (textParts ++ text)), rest) := by
  induction text generalizing textParts with
  | nil =>
    rw [append_nil, readString.eq_def]
    rfl
  | cons char text ih =>
    have apart : escape (char :: text) = escape [char] ++ escape text := escape_append [char] text
    rw [apart, append_assoc, readString_escape, ih, append_assoc]
    rfl

theorem tokenOf_flushText (text : List Char) : tokenOf (flushText [] text) = .string (ofList text) := by
  cases text <;> rfl

theorem renderInterpolation_append (first second : List Segment) :
    renderInterpolation (first ++ second) = renderInterpolation first ++ renderInterpolation second :=
  List.flatMap_append

theorem renderInterpolation_flushText (segments : List Segment) (textParts : List Char) :
    renderInterpolation (flushText segments textParts) =
      renderInterpolation segments ++ escape textParts := by
  unfold flushText
  split
  · rename_i nothing
    simp [nothing, escape]
  · simp [renderInterpolation]

theorem renderToken_tokenOf (segments : List Segment) :
    (renderToken (tokenOf segments)).toList = '"' :: renderInterpolation segments ++ ['"'] := by
  unfold tokenOf
  split <;> simp [renderToken, renderInterpolation, escape]

theorem readString_open
    (found : interpolationExpression 1 false false [] text = .ok (expression, rest))
    (nonempty : expression ≠ []) : readString segments textParts ('\x7b' :: text) =
      readString (flushText segments textParts ++ [.expr (ofList expression)]) [] rest := by
  rw [readString.eq_def]
  simp only [Char.reduceEq, if_false, if_true]
  split <;> simp_all

/-- A reading that goes on behind characters written for the token. -/
def Rendered (segments : List Segment) (textParts : List Char) (token : StringToken) : Prop :=
  ∃ final body, token = tokenOf final ∧
    renderInterpolation final = renderInterpolation segments ++ escape textParts ++ body ∧
    ∀ after, readString segments textParts (body ++ '"' :: after) = .ok (token, after)

theorem Rendered.behind (rendered : Rendered segments (textParts ++ [char]) token) :
    Rendered segments textParts token := by
  obtain ⟨final, body, same, written, reads⟩ := rendered
  refine ⟨final, escape [char] ++ body, same, ?_, fun after => ?_⟩
  · rw [written, escape_append]
    simp only [append_assoc]
  · rw [append_assoc, readString_escape, reads]

theorem Rendered.behind_expr (closes : Closes (1, false, false) expression)
    (nonempty : strip expression ≠ []) (rendered : Rendered
      (flushText segments textParts ++ [.expr (ofList (Koschei.strip expression))]) [] token) :
    Rendered segments textParts token := by
  obtain ⟨final, body, same, written, reads⟩ := rendered
  refine ⟨final, '\x7b' :: (strip expression ++ '\x7d' :: body), same, ?_, fun after => ?_⟩
  · rw [written, renderInterpolation_append, renderInterpolation_flushText]
    simp [renderInterpolation, escape]
  · have again := interpolationExpression_of_closes closes.strip [] (body ++ '"' :: after)
    have once : strip (strip expression) = strip expression := trim_of_clean (trim_clean _ _)
    rw [nil_append, once] at again
    rw [cons_append, append_assoc, cons_append, readString_open again nonempty, reads]

theorem rendered_of_read (read : readString segments textParts text = .ok (token, rest)) :
    Rendered segments textParts token := by
  fun_induction readString segments textParts text with
  | case2 segments textParts rest =>
    cases read
    refine ⟨flushText segments textParts, [], rfl, ?_, fun after => ?_⟩
    · rw [renderInterpolation_flushText, append_nil]
    · rw [nil_append, readString.eq_def]
      rfl
  | case5 segments textParts char rest escaped known _ ih => exact (ih read).behind
  | case8 segments textParts rest expression after found nonempty _ _ _ ih =>
    obtain ⟨expression, -, rfl, closes⟩ := exists_closes found
    exact (ih read).behind_expr closes nonempty
  | case10 segments textParts char rest mark backslash opening closing ih => exact (ih read).behind
  | _ => cases read

/-- What is rendered for the token of a literal, wherever it was read, is read as that token, and
whatever stands behind it is left. -/
theorem renderToken_reads (read : readString [] [] text = .ok (token, rest)) :
    ∃ body, (renderToken token).toList = '"' :: body ∧
      ∀ after, readString [] [] (body ++ after) = .ok (token, after) := by
  obtain ⟨final, body, rfl, written, again⟩ := rendered_of_read read
  refine ⟨body ++ ['"'], ?_, fun after => ?_⟩
  · rw [renderToken_tokenOf, written]
    rfl
  · rw [append_assoc, singleton_append, again]

end

theorem renderToken_reads_newline :
    ∃ body, (renderToken (.stringInterp [.text "\n", .expr "x"])).toList = '"' :: body ∧
      ∀ after, readString [] [] (body ++ after) = .ok (.stringInterp [.text "\n", .expr "x"], after) := by
  have read : readString [] [] ['\\', 'n', '\x7b', 'x', '\x7d', '"'] =
      .ok (.stringInterp [.text "\n", .expr "x"], []) :=
    (readString.eq_def ..).trans ((readString.eq_def ..).trans ((readString.eq_def ..).trans rfl))
  exact renderToken_reads read

end Koschei.Literals
