import Koschei.Go.Methods

/-!
# When the value methods agree

A `Call` is a call of a value method on a String, a List or a Map with as many
arguments as the method takes. `CallAgrees` says that both runtimes answer with
an Error or that the Go runtime answers with the value that stands for the
interpreter's. It holds exactly when the condition `Alike` does, which is about
the receiver and the arguments only.
-/

namespace Koschei

open Lib

/-- A call of a value method. -/
inductive Call where
  | textLength (s : String)
  | textToInt (s : String)
  | textTrim (s : String)
  | textContains (s needle : String)
  | textSplit (s : String) (separator : Datum)
  | textJoin (s : String) (values : Datum)
  | listLength (items : List Datum)
  | listGet (items : List Datum) (index : Datum)
  | listPush (items : List Datum) (item : Datum)
  | listContains (items : List Datum) (item : Datum)
  | listSort (items : List Datum)
  | mapGet (entries : List (String × Datum)) (key : Datum)
  | mapSet (entries : List (String × Datum)) (key item : Datum)
  | mapKeys (entries : List (String × Datum))
  | mapContains (entries : List (String × Datum)) (key : Datum)

namespace Call

def receiver : Call → Datum
  | textLength s | textToInt s | textTrim s | textContains s _ | textSplit s _ | textJoin s _ =>
    .str s
  | listLength items | listGet items _ | listPush items _ | listContains items _
  | listSort items => .list items
  | mapGet entries _ | mapSet entries _ _ | mapKeys entries | mapContains entries _ =>
    .map entries

def method : Call → Method
  | textLength _ | listLength _ => .length
  | textToInt _ => .toInt
  | textTrim _ => .trim
  | textContains _ _ | listContains _ _ | mapContains _ _ => .contains
  | textSplit _ _ => .split
  | textJoin _ _ => .join
  | listGet _ _ | mapGet _ _ => .get
  | listPush _ _ => .push
  | listSort _ => .sort
  | mapSet _ _ _ => .set
  | mapKeys _ => .keys

def arguments : Call → List Datum
  | textLength _ | textToInt _ | textTrim _ | listLength _ | listSort _ | mapKeys _ => []
  | textContains _ needle => [.str needle]
  | textSplit _ argument | textJoin _ argument | listGet _ argument | listPush _ argument
  | listContains _ argument | mapGet _ argument | mapContains _ argument => [argument]
  | mapSet _ key item => [key, item]

end Call

/-- The length of a text or a list. -/
def Datum.extent : Datum → Nat
  | .str s => s.length
  | .list items => items.length
  | _ => 0

/-- A call as a program can make it: its values are valid, and its receiver is no longer
than a sequence of the host can be. -/
structure ValueCall where
  call : Call
  receiver_valid : call.receiver.Valid
  arguments_valid : ∀ argument ∈ call.arguments, argument.Valid
  fits : (call.receiver.extent : Int) ≤ intMax

namespace Datum

/-- `isinstance(value, KsError)`. -/
def isError : Datum → Bool
  | .error _ => true
  | _ => false

end Datum

/-- Whether a value of the Go runtime is an Error. -/
def Go.GoValue.isError : Go.GoValue → Bool
  | .error _ => true
  | _ => false

/-- Both answers are Errors, or the second stands for the first. -/
def Agrees (answer : Datum) (goAnswer : Go.GoValue) : Prop :=
  (answer.isError = true ∧ goAnswer.isError = true) ∨ (answer.Valid ∧ goAnswer = answer.represent)

/-- The two runtimes agree on a call. -/
def CallAgrees (host : HostLibrary) (isPrint : Char → Bool) (c : Call) : Prop :=
  ∃ answer, Datum.invokeMember host c.receiver c.method c.arguments = some answer ∧
    Agrees answer (Go.ksCallValueMethod isPrint c.receiver.represent c.method
      (c.arguments.map Datum.represent))

/-! ## The conditions -/

/-- The white space at the ends of a text holds none of U+001C to U+001F. -/
def EndsAlike (text : List Char) : Prop :=
  (∀ c ∈ text.takeWhile isSpace, ¬ (0x1c ≤ c.toNat ∧ c.toNat ≤ 0x1f)) ∧
    ∀ c ∈ text.reverse.takeWhile isSpace, ¬ (0x1c ≤ c.toNat ∧ c.toNat ≤ 0x1f)

/-- A sign, if any, and ASCII digits, of a number in the signed 64-bit range. -/
structure PlainInt (text : List Char) : Prop where
  digits : (signed text).2 ≠ [] ∧ ∀ c ∈ (signed text).2, c.isDigit = true
  range : InRange (withSign (signed text).1 (numberOf ((signed text).2.map (·.toNat - 48))))

/-- A number as the host writes it: a sign, if any, and at most 4300 decimal digits with
single underscores between them. -/
def HostInt (host : HostLibrary) (text : List Char) : Prop :=
  ∃ digits, Datum.digitsOf host (signed text).2 = some digits ∧ digits.length ≤ maxStrDigits

/-- A text is read alike: what the host takes for a number is a plain one between white space
that both libraries know, and a plain number has at most 4300 digits. -/
def ReadAlike (host : HostLibrary) (text : List Char) : Prop :=
  (HostInt host (strip text) → PlainInt (strip text) ∧ EndsAlike text) ∧
    (PlainInt (strip text) → EndsAlike text → (signed (strip text)).2.length ≤ maxStrDigits)

/-- Among the items that equal the value loosely, one has its type arguments if and only if
one has its Bools where it has Bools. -/
def FoundAlike (items : List Datum) (item : Datum) : Prop :=
  (∃ x ∈ items, x.looselyEqual item = true ∧ x.sameArguments item = true) ↔
    ∃ x ∈ items, x.looselyEqual item = true ∧ x.sameKinds item = true

/-- Of two Ints with the same floating-point number, the greater does not stand before the
smaller. -/
def OrderedAlike (items : List Datum) : Prop := ∀ ints, Datum.ints? items = some ints →
    ints.Pairwise fun a b => Go.float64 a = Go.float64 b → a ≤ b

/-- When the runtimes agree on a call. -/
def Call.Alike (host : HostLibrary) : Call → Prop
  | textToInt s => ReadAlike host s.toList
  | textTrim s => EndsAlike s.toList
  | listContains items item => FoundAlike items item
  | listSort items => OrderedAlike items
  | _ => True

/-! ## White space and numbers -/

theorem strip_eq_trim (text : List Char) : strip text = trim isSpace text := rfl

theorem isSpace_of_goSpace (c : Char) (space : Go.isSpace c = true) : isSpace c = true := by
  simp only [Go.isSpace, isSpace, or_eq_true, and_eq_true, decide_eq_true_eq, beq_iff_eq] at *
  omega

variable {c : Char}

theorem goSpace_iff (space : isSpace c = true) :
    Go.isSpace c = true ↔ ¬ (0x1c ≤ c.toNat ∧ c.toNat ≤ 0x1f) := by
  simp only [Go.isSpace, isSpace, or_eq_true, and_eq_true, decide_eq_true_eq, beq_iff_eq] at *
  omega

theorem trimSpace_eq_iff (text : List Char) : Go.trimSpace text = strip text ↔ EndsAlike text := by
  rw [strip_eq_trim, Go.trimSpace, trim_eq_trim_iff isSpace_of_goSpace, EndsAlike]
  have pointwise (l : List Char) : (∀ c ∈ l.takeWhile isSpace, Go.isSpace c = true) ↔
      ∀ c ∈ l.takeWhile isSpace, ¬ (0x1c ≤ c.toNat ∧ c.toNat ≤ 0x1f) := by
    constructor
    · intro all c member
      exact (goSpace_iff (List.mem_takeWhile_imp member)).mp (all c member)
    · intro all c member
      exact (goSpace_iff (List.mem_takeWhile_imp member)).mpr (all c member)
  rw [pointwise, pointwise]

/-- A digit is an ASCII character and no white space. -/
theorem digit_bounds (digit : c.isDigit = true) : 48 ≤ c.toNat ∧ c.toNat ≤ 57 := by
  simp only [isDigit, and_eq_true, decide_eq_true_eq] at digit
  exact ⟨UInt32.le_iff_toNat_le.mp digit.1, UInt32.le_iff_toNat_le.mp digit.2⟩

theorem not_space_of_digit (digit : c.isDigit = true) : isSpace c = false := by
  obtain ⟨low, high⟩ := digit_bounds digit
  rw [eq_false_iff]
  intro space
  simp only [isSpace, or_eq_true, and_eq_true, decide_eq_true_eq, beq_iff_eq] at space
  omega

theorem le_numberFrom (digits : List Nat) (n : Nat) :
    n ≤ digits.foldl (fun n d => 10 * n + d) n := by
  induction digits generalizing n with
  | nil => exact le_refl n
  | cons d digits ih =>
    rw [foldl_cons]
    have step : n ≤ 10 * n + d := by omega
    exact step.trans (ih _)

/-- The loop of `ParseUint` reads digits whose number fits 64 bits, and nothing else. -/
theorem foldlM_parseDigit (text : List Char) (n : Nat) (small : n < 2 ^ 64) :
    text.foldlM Go.parseDigit n = if text.all isDigit = true ∧
          (text.map (·.toNat - 48)).foldl (fun n d => 10 * n + d) n < 2 ^ 64 then
        some ((text.map (·.toNat - 48)).foldl (fun n d => 10 * n + d) n)
      else none := by
  induction text generalizing n with
  | nil =>
    rw [map_nil, List.foldl_nil, if_pos ⟨by simp, small⟩]
    rfl
  | cons c text ih =>
    rw [foldlM_cons, Go.parseDigit]
    by_cases digit : c.isDigit = true
    · rw [if_pos digit]
      by_cases large : 2 ^ 64 ≤ 10 * n + (c.toNat - 48)
      · have beyond := le_numberFrom (text.map (·.toNat - 48)) (10 * n + (c.toNat - 48))
        rw [if_pos large, if_neg]
        · rfl
        · rintro ⟨-, fits⟩
          rw [map_cons, foldl_cons] at fits
          omega
      · rw [if_neg large]
        change text.foldlM Go.parseDigit (10 * n + (c.toNat - 48)) = _
        rw [ih _ (by omega), map_cons, foldl_cons]
        simp only [List.all_cons, digit, Bool.true_and]
    · rw [if_neg digit, if_neg]
      · rfl
      · rintro ⟨all, -⟩
        exact digit (all_eq_true.mp all c mem_cons_self)

theorem inRange_withSign (negative : Bool) (n : Nat) :
    InRange (withSign negative n) ↔ if negative then n ≤ 2 ^ 63 else n < 2 ^ 63 := by
  cases negative with
  | false =>
    rw [withSign, if_neg false_ne_true, if_neg false_ne_true, InRange, intMin, intMax]
    omega
  | true =>
    rw [withSign, if_pos rfl, if_pos rfl, InRange, intMin, intMax]
    omega

/-- `ParseInt` reads the plain numbers, and nothing else. -/
theorem parseInt_eq_some (text : List Char) (i : Int) : Go.parseInt text = some i ↔ PlainInt text ∧
      i = withSign (signed text).1 (numberOf ((signed text).2.map (·.toNat - 48))) := by
  rw [Go.parseInt, Go.parseUint]
  by_cases empty : (signed text).2 = []
  · rw [if_pos empty]
    constructor
    · intro impossible
      cases impossible
    · rintro ⟨plain, -⟩
      exact absurd empty plain.digits.1
  · rw [if_neg empty, foldlM_parseDigit _ 0 (by decide)]
    change _ ↔ _ ∧ i = withSign (signed text).1
      ((((signed text).2).map (·.toNat - 48)).foldl (fun n d => 10 * n + d) 0)
    have ranges := inRange_withSign (signed text).1 (numberOf ((signed text).2.map (·.toNat - 48)))
    have plain : PlainInt text ↔ (∀ c ∈ (signed text).2, c.isDigit = true) ∧
        InRange (withSign (signed text).1 (numberOf ((signed text).2.map (·.toNat - 48)))) :=
      ⟨fun h => ⟨h.digits.2, h.range⟩, fun h => ⟨⟨empty, h.1⟩, h.2⟩⟩
    rw [plain, ranges, numberOf]
    generalize (((signed text).2).map (·.toNat - 48)).foldl (fun n d => 10 * n + d) 0 = value
    generalize (signed text).1 = negative
    rw [← all_eq_true]
    by_cases digits : (signed text).2.all isDigit = true
    · by_cases fits : value < 2 ^ 64
      · rw [if_pos ⟨digits, fits⟩]
        cases negative <;> simp <;> grind
      · rw [if_neg (fun both => fits both.2)]
        cases negative <;> simp <;> omega
    · rw [if_neg (fun both => digits both.1)]
      simp [digits]

theorem digit_of_isDigit (host : HostLibrary) (digit : c.isDigit = true) :
    host.digit c = some (c.toNat - 48) := by
  have bounds := digit_bounds digit
  rw [host.digit_ascii c (by omega), if_pos digit]

theorem ne_underscore (digit : c.isDigit = true) : c ≠ '_' := by
  rintro rfl
  exact absurd digit (by decide)

theorem digitsOf_plain (host : HostLibrary) (text : List Char) (some_digit : text ≠ [])
    (digits : ∀ c ∈ text, c.isDigit = true) :
    Datum.digitsOf host text = some (text.map (·.toNat - 48)) := by
  induction text with
  | nil => exact absurd rfl some_digit
  | cons c text ih =>
    have first := digit_of_isDigit host (digits c mem_cons_self)
    cases text with
    | nil => rw [Datum.digitsOf, first, map_some, map_cons, map_nil]
    | cons d text =>
      have second : d ≠ '_' := ne_underscore (digits d (by simp))
      have rest := ih (by simp) fun x member => digits x (mem_cons_of_mem c member)
      rw [Datum.digitsOf, first, rest]
      · rfl
      · intro same
        cases same
      · intro tail same
        exact second (cons.inj same).1

variable {text : List Char}

theorem hostInt_of_plain (host : HostLibrary) (plain : PlainInt text) :
    HostInt host text ↔ (signed text).2.length ≤ maxStrDigits := by
  rw [HostInt, digitsOf_plain host _ plain.digits.1 plain.digits.2]
  simp

theorem mem_signed (member : c ∈ text) : c = '-' ∨ c = '+' ∨ c ∈ (signed text).2 := by
  unfold signed
  split
  · rcases mem_cons.mp member with rfl | later
    · exact .inl rfl
    · exact .inr (.inr later)
  · rcases mem_cons.mp member with rfl | later
    · exact .inr (.inl rfl)
    · exact .inr (.inr later)
  · exact .inr (.inr member)

theorem PlainInt.not_space (plain : PlainInt text) (member : c ∈ text) : isSpace c = false := by
  rcases mem_signed member with rfl | rfl | digit
  · rfl
  · rfl
  · exact not_space_of_digit (plain.digits.2 c digit)

/-- Around a plain number the host strips what the Go library trims. -/
theorem strip_of_plain (plain : PlainInt (Go.trimSpace text)) : Go.trimSpace text = strip text := by
  obtain ⟨u, v, before, after, parts⟩ := exists_trim Go.isSpace text
  have clean : CleanEnds isSpace (Go.trimSpace text) :=
    ⟨fun x first => plain.not_space (List.mem_of_head? first),
      fun x final => plain.not_space (List.mem_of_getLast? final)⟩
  have stripped : strip (u ++ Go.trimSpace text ++ v) = Go.trimSpace text :=
    trim_append (fun x member => isSpace_of_goSpace x (before x member)) clean
      fun x member => isSpace_of_goSpace x (after x member)
  have whole : u ++ Go.trimSpace text ++ v = text := parts.symm
  rw [whole] at stripped
  exact stripped.symm

/-! ## The methods of texts -/

theorem agrees_represent {answer : Datum} (valid : answer.Valid) :
    Agrees answer answer.represent := .inr ⟨valid, rfl⟩

theorem agrees_error (m n : String) : Agrees (.error m) (.error n) := .inl ⟨rfl, rfl⟩

theorem agrees_str_iff (s t : String) : Agrees (.str s) (.string t) ↔ t = s := by
  constructor
  · rintro (⟨failed, -⟩ | ⟨-, same⟩)
    · cases failed
    · exact Go.GoValue.string.inj same
  · rintro rfl
    exact agrees_represent trivial

theorem agrees_bool_iff (a b : Bool) : Agrees (.bool a) (.bool b) ↔ (a = true ↔ b = true) := by
  constructor
  · rintro (⟨failed, -⟩ | ⟨-, same⟩)
    · cases failed
    · rw [Go.GoValue.bool.inj same]
  · intro same
    rw [Bool.eq_iff_iff.mpr same]
    exact agrees_represent trivial

/-- The host's answer to `to_int`. -/
theorem textToInt_eq (host : HostLibrary) (s : String) :
    (¬ HostInt host (strip s.toList) ∧ (Datum.textToInt host s).isError = true) ∨
      HostInt host (strip s.toList) ∧ ∃ i, Datum.textToInt host s = .int i := by
  unfold Datum.textToInt Datum.int? HostInt
  cases Datum.digitsOf host (signed (strip s.toList)).2 with
  | none => exact .inl ⟨by simp, rfl⟩
  | some digits =>
    by_cases many : maxStrDigits < digits.length
    · refine .inl ⟨by simpa using many, ?_⟩
      simp only [if_pos many]
      rfl
    · refine .inr ⟨⟨digits, rfl, by omega⟩, withSign (signed (strip s.toList)).1
        (numberOf digits), ?_⟩
      simp only [if_neg many]

/-- On a plain number of not too many digits the host reads what `ParseInt` reads. -/
theorem textToInt_plain (host : HostLibrary) {s : String} (plain : PlainInt (strip s.toList))
    (few : (signed (strip s.toList)).2.length ≤ maxStrDigits) :
    Datum.textToInt host s = .int (withSign (signed (strip s.toList)).1
      (numberOf ((signed (strip s.toList)).2.map (·.toNat - 48)))) := by
  unfold Datum.textToInt Datum.int?
  rw [digitsOf_plain host _ plain.digits.1 plain.digits.2]
  simp only [length_map, if_neg (not_lt_of_ge few)]

theorem ksToInt_plain {s : String} (plain : PlainInt (strip s.toList)) (ends : EndsAlike s.toList) :
    Go.ksToInt (.string s) = .int64 (Int64.ofInt (withSign (signed (strip s.toList)).1
      (numberOf ((signed (strip s.toList)).2.map (·.toNat - 48))))) := by
  have reads := (parseInt_eq_some _ _).mpr ⟨plain, rfl⟩
  rw [Go.ksToInt, (trimSpace_eq_iff _).mpr ends, reads]

theorem ksToInt_eq (s : String) : (¬ (PlainInt (strip s.toList) ∧ EndsAlike s.toList) ∧
        (Go.ksToInt (.string s)).isError = true) ∨
      (PlainInt (strip s.toList) ∧ EndsAlike s.toList) := by
  by_cases plain : PlainInt (strip s.toList) ∧ EndsAlike s.toList
  · exact .inr plain
  · refine .inl ⟨plain, ?_⟩
    rw [Go.ksToInt]
    cases reads : Go.parseInt (Go.trimSpace s.toList) with
    | none => rfl
    | some i =>
      obtain ⟨trimmed, -⟩ := (parseInt_eq_some _ _).mp reads
      have same := strip_of_plain trimmed
      exact absurd ⟨same ▸ trimmed, (trimSpace_eq_iff _).mp same⟩ plain

theorem toInt_agrees_iff (host : HostLibrary) (s : String) :
    Agrees (Datum.textToInt host s) (Go.ksToInt (.string s)) ↔ ReadAlike host s.toList := by
  constructor
  · intro agree
    rcases textToInt_eq host s with ⟨unread, failed⟩ | ⟨read, i, answer⟩
    · refine ⟨fun read => absurd read unread, fun plain ends => ?_⟩
      -- The Go runtime answers with a number where the host fails.
      rcases agree with ⟨-, goFailed⟩ | ⟨-, same⟩
      · rw [ksToInt_plain plain ends] at goFailed
        cases goFailed
      · rw [ksToInt_plain plain ends] at same
        cases number : Datum.textToInt host s with
        | error m =>
          rw [number] at same
          cases same
        | unit | bool | int | str | list | map | struct | enum =>
          rw [number] at failed
          cases failed
    · rw [answer] at agree
      rcases ksToInt_eq s with ⟨-, failed⟩ | ⟨plain, ends⟩
      · rcases agree with ⟨impossible, -⟩ | ⟨-, same⟩
        · cases impossible
        · rw [same] at failed
          cases failed
      · exact ⟨fun _ => ⟨plain, ends⟩, fun _ _ => (hostInt_of_plain host plain).mp read⟩
  · rintro ⟨hostReads, goReads⟩
    rcases textToInt_eq host s with ⟨unread, failed⟩ | ⟨read, -⟩
    · rcases ksToInt_eq s with ⟨-, goFailed⟩ | ⟨plain, ends⟩
      · exact .inl ⟨failed, goFailed⟩
      · exact absurd ((hostInt_of_plain host plain).mpr (goReads plain ends)) unread
    · obtain ⟨plain, ends⟩ := hostReads read
      rw [textToInt_plain host plain (goReads plain ends), ksToInt_plain plain ends]
      exact agrees_represent plain.range

theorem trim_agrees_iff (s : String) : Agrees (.str (ofList (strip s.toList)))
      (.string (ofList (Go.trimSpace s.toList))) ↔ EndsAlike s.toList := by
  rw [agrees_str_iff, ofList_inj, trimSpace_eq_iff]

namespace Datum

theorem representItems_eq_map (items : List Datum) : representItems items = items.map represent := by
  induction items with
  | nil => rfl
  | cons item items ih => rw [representItems, map_cons, ih]

theorem validItems_iff (items : List Datum) : ValidItems items ↔ ∀ item ∈ items, item.Valid := by
  induction items with
  | nil => simp [ValidItems]
  | cons item items ih => simp [ValidItems, ih]

theorem texts?_represent (items : List Datum) : Go.texts? (representItems items) = texts? items := by
  induction items with
  | nil => rfl
  | cons item items ih =>
    cases item with
    | str s => rw [representItems, represent, Go.texts?, texts?, ih]
    | unit | bool | int | error | list | map | struct | enum => rfl

theorem ints?_represent (items : List Datum) :
    Go.ints? (representItems items) = (ints? items).map (·.map Int64.ofInt) := by
  induction items with
  | nil => rfl
  | cons item items ih =>
    cases item with
    | int i =>
      rw [representItems, represent, Go.ints?, ints?, ih]
      cases ints? items <;> rfl
    | unit | bool | str | error | list | map | struct | enum => rfl

variable {items : List Datum} {ints : List Int}

theorem eq_of_ints? (numbers : ints? items = some ints) : items = ints.map .int := by
  induction items generalizing ints with
  | nil =>
    cases numbers
    rfl
  | cons item items ih =>
    cases item with
    | int i =>
      rw [ints?, map_eq_some_iff] at numbers
      obtain ⟨rest, found, rfl⟩ := numbers
      rw [ih found, map_cons]
    | unit | bool | str | error | list | map | struct | enum => cases numbers

theorem texts?_of_ints? (numbers : ints? items = some ints)
    (some_item : items ≠ []) : texts? items = none := by
  cases items with
  | nil => exact absurd rfl some_item
  | cons item items =>
    cases item with
    | int i => rfl
    | unit | bool | str | error | list | map | struct | enum => cases numbers

end Datum

theorem split_agrees (s : String) (separator : Datum) :
    Agrees (Datum.textSplit s separator) (Go.ksSplit (.string s) separator.represent) := by
  cases separator with
  | str separator =>
    rw [Datum.textSplit, Datum.represent, Go.ksSplit]
    by_cases empty : separator = ""
    · rw [if_pos empty, if_pos empty]
      exact agrees_error _ _
    · rw [if_neg empty, if_neg empty]
      refine .inr ⟨?_, ?_⟩
      · rw [Datum.Valid, Datum.validItems_iff]
        simp [Datum.Valid]
      · rw [Datum.represent, Datum.representItems_eq_map, map_map]
        rfl
  | unit | bool | int | error | list | map | struct | enum => exact agrees_error _ _

theorem join_agrees (s : String) (values : Datum) :
    Agrees (Datum.textJoin s values) (Go.ksJoin (.string s) values.represent) := by
  cases values with
  | list items =>
    rw [Datum.textJoin, Datum.represent, Go.ksJoin, Datum.texts?_represent]
    cases Datum.texts? items with
    | none => exact agrees_error _ _
    | some texts => exact agrees_represent trivial
  | unit | bool | int | str | error | map | struct | enum => exact agrees_error _ _

theorem length_agrees {n : Nat} (fits : (n : Int) ≤ intMax) :
    Agrees (.int n) (.int64 (Int64.ofInt n)) := by
  apply agrees_represent
  constructor
  · rw [intMin]
    omega
  · exact fits

/-! ## The methods of Lists -/

theorem get_agrees (items : List Datum) (index : Datum) (valid : Datum.ValidItems items)
    (indexValid : index.Valid) :
    Agrees (Datum.listGet items index)
      (Go.ksListGet (.slice (Datum.representItems items)) index.represent) := by
  cases index with
  | int i =>
    rw [Datum.listGet, Datum.represent, Go.ksListGet, bmod_of_inRange indexValid,
      Datum.representItems_eq_map, length_map]
    by_cases outside : i < 0 ∨ (items.length : Int) ≤ i
    · rw [if_pos outside, if_pos outside]
      exact agrees_represent trivial
    · rw [if_neg outside, if_neg outside]
      obtain ⟨item, found⟩ : ∃ item, items[i.toNat]? = some item :=
        ⟨_, List.getElem?_eq_getElem (by omega)⟩
      rw [List.getElem?_map, found]
      apply agrees_represent
      exact (Datum.validItems_iff items).mp valid item (mem_of_getElem? found)
  | unit | bool | str | error | list | map | struct | enum => exact agrees_error _ _

theorem push_agrees (items : List Datum) (item : Datum) (valid : Datum.ValidItems items)
    (itemValid : item.Valid) :
    Agrees (.list (items ++ [item]))
      (Go.ksListPush (.slice (Datum.representItems items)) item.represent) := by
  refine .inr ⟨?_, ?_⟩
  · rw [Datum.Valid, Datum.validItems_iff]
    intro x member
    rcases mem_append.mp member with old | new
    · exact (Datum.validItems_iff items).mp valid x old
    · rw [mem_singleton.mp new]
      exact itemValid
  · rw [Go.ksListPush, Datum.represent, Datum.representItems_eq_map, Datum.representItems_eq_map,
      map_append, map_singleton]

theorem listContains_agrees_iff (items : List Datum) (item : Datum)
    (valid : Datum.ValidItems items) (itemValid : item.Valid) :
    Agrees (.bool (items.any fun x => Datum.hostEqual x item))
      (.bool ((Datum.representItems items).any fun x => Go.ksEq x item.represent)) ↔
      FoundAlike items item := by
  have hostFinds : (items.any fun x => Datum.hostEqual x item) = true ↔
      ∃ x ∈ items, x.looselyEqual item = true ∧ x.sameArguments item = true := by
    simp only [any_eq_true, Datum.hostEqual_eq, and_eq_true]
  have goFinds : ((Datum.representItems items).any fun x => Go.ksEq x item.represent) = true ↔
      ∃ x ∈ items, x.looselyEqual item = true ∧ x.sameKinds item = true := by
    rw [Datum.representItems_eq_map, List.any_map, any_eq_true]
    constructor
    · rintro ⟨x, member, equal⟩
      have whole := Datum.ksEq_represent x item
        ((Datum.validItems_iff items).mp valid x member) itemValid
      exact ⟨x, member, by rwa [Function.comp, whole, and_eq_true] at equal⟩
    · rintro ⟨x, member, equal⟩
      have whole := Datum.ksEq_represent x item
        ((Datum.validItems_iff items).mp valid x member) itemValid
      exact ⟨x, member, by rwa [Function.comp, whole, and_eq_true]⟩
  rw [agrees_bool_iff, hostFinds, goFinds, FoundAlike]

variable {ints : List Int}

/-- Taking the Ints of the Go runtime back gives the Ints they stand for. -/
theorem map_toInt_ofInt (valid : ∀ i ∈ ints, InRange i) :
    (ints.map Int64.ofInt).map Int64.toInt = ints := by
  rw [map_map]
  conv_rhs => rw [← map_id ints]
  apply map_congr_left
  intro i member
  exact bmod_of_inRange (valid i member)

/-- The Go runtime's order of Ints that stand for those of a list. -/
theorem sort_ofInt (valid : ∀ i ∈ ints, InRange i) :
    sortByKey (fun i : Int64 => Go.float64 i.toInt) (ints.map Int64.ofInt) =
      (sortByKey Go.float64 ints).map Int64.ofInt := by
  symm
  apply map_sortByKey
  intro i member
  rw [bmod_of_inRange (valid i member)]

theorem float64_mono {i j : Int} (ordered : i ≤ j) : Go.float64 i ≤ Go.float64 j :=
  roundInt_mono (by decide) ordered

theorem sort_ints_agrees_iff (valid : ∀ i ∈ ints, InRange i) :
    Agrees (.list ((sortByKey id ints).map .int)) (.slice ((sortByKey
      (fun i : Int64 => Go.float64 i.toInt) (ints.map Int64.ofInt)).map .int64)) ↔
      ints.Pairwise fun a b => Go.float64 a = Go.float64 b → a ≤ b := by
  have hostValid : ∀ i ∈ sortByKey id ints, InRange i := fun i member =>
    valid i ((sortByKey_perm id ints).subset member)
  have goValid : ∀ i ∈ sortByKey Go.float64 ints, InRange i := fun i member =>
    valid i ((sortByKey_perm Go.float64 ints).subset member)
  have shown : (Datum.list ((sortByKey id ints).map .int)).represent =
      .slice (((sortByKey id ints).map Int64.ofInt).map .int64) := by
    rw [Datum.represent, Datum.representItems_eq_map, map_map, map_map]
    rfl
  rw [sort_ofInt valid, ← sortByKey_eq_sort_iff fun _ _ => float64_mono]
  constructor
  · rintro (⟨failed, -⟩ | ⟨-, same⟩)
    · cases failed
    · rw [shown, Go.GoValue.slice.injEq] at same
      have numbers : (sortByKey Go.float64 ints).map Int64.ofInt =
          (sortByKey id ints).map Int64.ofInt :=
        List.map_injective_iff.mpr (fun i j equal => Go.GoValue.int64.inj equal) same
      rw [← map_toInt_ofInt goValid, numbers, map_toInt_ofInt hostValid]
  · intro same
    refine .inr ⟨?_, ?_⟩
    · rw [Datum.Valid, Datum.validItems_iff]
      intro item member
      obtain ⟨i, found, rfl⟩ := mem_map.mp member
      exact hostValid i found
    · rw [shown, same]

theorem sort_texts_agrees (texts : List String) :
    Agrees (.list ((sortByKey id texts).map .str)) (.slice ((sortByKey id texts).map .string)) := by
  refine .inr ⟨?_, ?_⟩
  · rw [Datum.Valid, Datum.validItems_iff]
    intro item member
    obtain ⟨s, -, rfl⟩ := mem_map.mp member
    trivial
  · rw [Datum.represent, Datum.representItems_eq_map, map_map]
    rfl

theorem sort_agrees_iff (items : List Datum) (valid : Datum.ValidItems items) :
    Agrees (Datum.listSort items) (Go.ksListSort (.slice (Datum.representItems items))) ↔
      OrderedAlike items := by
  cases items with
  | nil =>
    constructor
    · rintro - ints numbers
      cases numbers
      exact List.Pairwise.nil
    · intro _
      exact agrees_represent trivial
  | cons first rest =>
    rw [Datum.listSort, Go.ksListSort, Datum.texts?_represent, Datum.ints?_represent,
      List.isEmpty_cons, if_neg false_ne_true, Datum.representItems, List.isEmpty_cons,
      if_neg false_ne_true, OrderedAlike]
    cases numbers : Datum.ints? (first :: rest) with
    | some ints =>
      rw [Datum.texts?_of_ints? numbers (by simp)]
      have range : ∀ i ∈ ints, InRange i := by
        intro i member
        have whole := (Datum.validItems_iff _).mp valid
        rw [Datum.eq_of_ints? numbers] at whole
        exact whole (.int i) (mem_map_of_mem member)
      simp only [map_some, some.injEq, forall_eq']
      exact sort_ints_agrees_iff range
    | none =>
      refine iff_of_true ?_ (by simp)
      cases Datum.texts? (first :: rest) with
      | some texts => exact sort_texts_agrees texts
      | none => exact agrees_error _ _

/-! ## The methods of Maps -/

theorem withKey_agrees {key : Datum} {name : String} {use : String → Datum}
    {keys : List String} {values : List (String × Go.GoValue)}
    {goUse : List String → List (String × Go.GoValue) → String → Go.GoValue}
    (inner : ∀ key, Agrees (use key) (goUse keys values key)) :
    Agrees (Datum.withKey key use)
      (Go.withMapKey name (.ksMap keys values) key.represent goUse) := by
  cases key with
  | str key => exact inner key
  | unit | bool | int | error | list | map | struct | enum => exact agrees_error _ _

section

variable (entries : List (String × Datum))

include entries

theorem mapGet_agrees (key : Datum) (valid : Datum.ValidEntries entries) :
    Agrees (Datum.mapGet entries key) (Go.ksMapGet
      (.ksMap (entries.map fst) (Datum.representEntries entries)) key.represent) := by
  apply withKey_agrees
  intro key
  rw [Datum.lookup_representEntries]
  cases found : entries.lookup key with
  | none => exact agrees_error _ _
  | some item => exact agrees_represent (Datum.valid_of_lookup valid found)

theorem representEntries_setEntry (key : String) (item : Datum) :
    Datum.representEntries (setEntry entries key item) =
      setEntry (Datum.representEntries entries) key item.represent := by
  induction entries with
  | nil => rfl
  | cons entry entries ih =>
    obtain ⟨other, old⟩ := entry
    rw [setEntry, Datum.representEntries, setEntry]
    by_cases same : other = key
    · rw [if_pos same, if_pos same]
      rfl
    · rw [if_neg same, if_neg same, Datum.representEntries, ih]

theorem keys_setEntry (key : String) (item : Datum) :
    (setEntry entries key item).map fst =
      if (entries.lookup key).isSome then entries.map fst
      else entries.map fst ++ [key] := by
  induction entries with
  | nil => rfl
  | cons entry entries ih =>
    obtain ⟨other, old⟩ := entry
    rw [setEntry, lookup_cons]
    by_cases same : other = key
    · subst same
      simp
    · have missed : (key == other) = false := by simpa using fun equal => same equal.symm
      rw [if_neg same, missed, map_cons, ih]
      simp only [map_cons]
      split <;> rfl

theorem mem_keys_of_lookup (key : String) :
    (entries.lookup key).isSome = true ↔ key ∈ entries.map fst := by
  rw [List.lookup_isSome_iff, mem_map]
  constructor
  · rintro ⟨entry, member, same⟩
    exact ⟨entry, member, (beq_iff_eq.mp same).symm⟩
  · rintro ⟨entry, member, rfl⟩
    exact ⟨entry, member, beq_self_eq_true _⟩

omit entries in
theorem valid_setEntry {entries : List (String × Datum)} {key : String} {item : Datum}
    (valid : (Datum.map entries).Valid) (itemValid : item.Valid) :
    (Datum.map (setEntry entries key item)).Valid := by
  refine ⟨?_, ?_⟩
  · rw [keys_setEntry]
    by_cases present : (entries.lookup key).isSome = true
    · rw [if_pos present]
      exact valid.1
    · rw [if_neg present]
      rw [mem_keys_of_lookup] at present
      exact nodup_append.mpr ⟨valid.1, List.nodup_singleton key, fun a first b second => by
          rw [mem_singleton.mp second]
          rintro rfl
          exact present first⟩
  · obtain ⟨-, items⟩ := valid
    induction entries with
    | nil => exact ⟨itemValid, trivial⟩
    | cons entry entries ih =>
      obtain ⟨other, old⟩ := entry
      rw [setEntry]
      by_cases same : other = key
      · rw [if_pos same]
        exact ⟨itemValid, items.2⟩
      · rw [if_neg same]
        exact ⟨items.1, ih items.2⟩

theorem mapSet_agrees (key item : Datum)
    (valid : (Datum.map entries).Valid) (itemValid : item.Valid) :
    Agrees (Datum.withKey key fun key => .map (setEntry entries key item)) (Go.ksMapSet
      (.ksMap (entries.map fst) (Datum.representEntries entries)) key.represent
        item.represent) := by
  apply withKey_agrees
  intro key
  refine .inr ⟨valid_setEntry valid itemValid, ?_⟩
  rw [Datum.represent, keys_setEntry, representEntries_setEntry, Datum.lookup_representEntries,
    isSome_map]

theorem mapKeys_agrees :
    Agrees (.list (entries.map fun entry => .str entry.1)) (Go.ksMapKeys
      (.ksMap (entries.map fst) (Datum.representEntries entries))) := by
  refine .inr ⟨?_, ?_⟩
  · rw [Datum.Valid, Datum.validItems_iff]
    intro item member
    obtain ⟨entry, -, rfl⟩ := mem_map.mp member
    trivial
  · rw [Go.ksMapKeys, Datum.represent, Datum.representItems_eq_map, map_map, map_map]
    rfl

theorem mapContains_agrees (isPrint : Char → Bool) (key : Datum) :
    Agrees (Datum.withKey key fun key => .bool (entries.lookup key).isSome) (Go.ksContains isPrint
      (.ksMap (entries.map fst) (Datum.representEntries entries)) key.represent) := by
  cases key with
  | str key =>
    rw [Datum.represent, Go.ksContains, Datum.lookup_representEntries, isSome_map]
    exact agrees_represent trivial
  | unit | bool | int | error | list | map | struct | enum => exact agrees_error _ _

end

/-! ## All calls -/

theorem callAgrees_iff {host : HostLibrary} {isPrint : Char → Bool} {c : Call} {answer : Datum}
    (invoked : Datum.invokeMember host c.receiver c.method c.arguments = some answer) :
    CallAgrees host isPrint c ↔ Agrees answer (Go.ksCallValueMethod isPrint c.receiver.represent
      c.method (c.arguments.map Datum.represent)) := by
  constructor
  · rintro ⟨other, answered, agree⟩
    rw [invoked] at answered
    rw [some.inj answered]
    exact agree
  · intro agree
    exact ⟨answer, invoked, agree⟩

/-- The interpreter and the Go runtime agree on a call exactly when none of the differences
between their libraries shows. -/
theorem valueMethod_agrees_iff (host : HostLibrary) (isPrint : Char → Bool) (c : ValueCall) :
    CallAgrees host isPrint c.call ↔ c.call.Alike host := by
  obtain ⟨call, valid, argumentsValid, fits⟩ := c
  cases call with
  | textLength s => exact (callAgrees_iff rfl).trans (iff_of_true (length_agrees fits) trivial)
  | textToInt s => exact (callAgrees_iff rfl).trans (toInt_agrees_iff host s)
  | textTrim s => exact (callAgrees_iff rfl).trans (trim_agrees_iff s)
  | textContains s needle =>
    refine (callAgrees_iff rfl).trans (iff_of_true ?_ trivial)
    rw [host.str_text]
    exact agrees_represent trivial
  | textSplit s separator =>
    exact (callAgrees_iff rfl).trans (iff_of_true (split_agrees s separator) trivial)
  | textJoin s values =>
    exact (callAgrees_iff rfl).trans (iff_of_true (join_agrees s values) trivial)
  | listLength items =>
    refine (callAgrees_iff rfl).trans (iff_of_true ?_ trivial)
    have agree := length_agrees fits
    change Agrees _ (.int64 (Int64.ofInt ((Datum.representItems items).length)))
    rwa [Datum.representItems_eq_map, length_map]
  | listGet items index =>
    have indexValid := argumentsValid index (mem_singleton.mpr rfl)
    exact (callAgrees_iff rfl).trans (iff_of_true (get_agrees items index valid indexValid) trivial)
  | listPush items item =>
    have itemValid := argumentsValid item (mem_singleton.mpr rfl)
    exact (callAgrees_iff rfl).trans (iff_of_true (push_agrees items item valid itemValid) trivial)
  | listContains items item =>
    have itemValid := argumentsValid item (mem_singleton.mpr rfl)
    exact (callAgrees_iff rfl).trans (listContains_agrees_iff items item valid itemValid)
  | listSort items => exact (callAgrees_iff rfl).trans (sort_agrees_iff items valid)
  | mapGet entries key =>
    exact (callAgrees_iff rfl).trans (iff_of_true (mapGet_agrees entries key valid.2) trivial)
  | mapSet entries key item =>
    have itemValid := argumentsValid item (mem_cons_of_mem key (mem_singleton.mpr rfl))
    exact (callAgrees_iff rfl).trans
      (iff_of_true (mapSet_agrees entries key item valid itemValid) trivial)
  | mapKeys entries => exact (callAgrees_iff rfl).trans (iff_of_true (mapKeys_agrees entries) trivial)
  | mapContains entries key =>
    exact (callAgrees_iff rfl).trans
      (iff_of_true (mapContains_agrees entries isPrint key) trivial)

/-- `"1_000".to_int()` is 1000 for the interpreter and an Error for the Go binary. -/
def underscored : ValueCall where
  call := .textToInt "1_000"
  receiver_valid := trivial
  arguments_valid := by simp [Call.arguments]
  fits := by decide

/-- The Ints 2^53 + 1 and 2^53, in this order. -/
def adjacent : ValueCall where
  call := .listSort [.int 9007199254740993, .int 9007199254740992]
  receiver_valid := by
    refine ⟨?_, ?_, trivial⟩
    · exact ⟨by decide, by decide⟩
    · exact ⟨by decide, by decide⟩
  arguments_valid := by simp [Call.arguments]
  fits := by decide

/-- A host that knows the ASCII digits only. -/
def asciiLibrary : HostLibrary where
  digit c := if c.isDigit then some (c.toNat - 48) else none
  digit_ascii _ _ := rfl
  str
    | .str s => s
    | _ => ""
  str_text _ := rfl

/-- The interpreter reads the underscore that the Go library refuses, and sorts the Ints that
are one floating-point number. -/
theorem valueMethods_disagree : ¬ CallAgrees asciiLibrary Char.isAlphanum underscored.call ∧
      ¬ CallAgrees asciiLibrary Char.isAlphanum adjacent.call := by
  constructor
  · intro agree
    have alike := (toInt_agrees_iff asciiLibrary "1_000").mp ((callAgrees_iff rfl).mp agree)
    have read : HostInt asciiLibrary (strip "1_000".toList) := ⟨[1, 0, 0, 0], by decide, by decide⟩
    have digits := (alike.1 read).1.digits.2
    have underscore : '_' ∈ (signed (strip "1_000".toList)).2 := by decide
    exact absurd (digits '_' underscore) (by decide)
  · intro agree
    have valid := adjacent.receiver_valid
    have alike := (sort_agrees_iff _ valid).mp ((callAgrees_iff rfl).mp agree) _ rfl
    exact absurd alike (by decide)

end Koschei
