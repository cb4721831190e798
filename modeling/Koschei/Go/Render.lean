import Koschei.Core.Datum
import Koschei.Lib.Divergence

/-!
# Printing in the interpreter and in the Go binary

`ks_to_string` and `_ks_repr` of the interpreter, `ksToString` and `ksRepr` of
the Go runtime, and exactly when the two print a value alike. The interpreter
puts a nested text between quotation marks and changes nothing in it; the Go
runtime quotes it with `strconv.Quote`, which escapes the quotation mark, the
backslash and what is not printable. The payload of an enum value is nested for
the interpreter and not nested for the Go runtime.

Which runes are printable is a table of the Go library, here the parameter
`isPrint`. Nothing is assumed about it.
-/

namespace Koschei

open Lib

/-! ## The interpreter's printer -/

namespace Datum

def decimal (i : Int) : String := toString i

/-- `_ks_repr`, given what `ks_to_string` writes: a text inside a container stands between
quotation marks. -/
def nested (v : Datum) (written : String) : String := match v with
  | .str s => "\"" ++ s ++ "\""
  | _ => written

mutual
/-- `ks_to_string`. -/
def ksToString : Datum → String
  | .bool b => if b then "true" else "false"
  | .list items => "[" ++ ", ".intercalate (reprItems items) ++ "]"
  | .map entries => "\x7b" ++ ", ".intercalate (reprEntries entries) ++ "\x7d"
  | .struct typeName fields _ =>
    typeName ++ " \x7b " ++ ", ".intercalate (reprFields fields) ++ " \x7d"
  | .enum _ variant payload _ => variant ++ reprPayload payload
  | .unit => "unit"
  | .int i => decimal i
  | .str s => s
  | .error message => message

def reprItems : List Datum → List String
  | [] => []
  | item :: items => nested item (ksToString item) :: reprItems items

def reprEntries : List (String × Datum) → List String
  | [] => []
  | (key, item) :: entries =>
    ("\"" ++ key ++ "\"" ++ ": " ++ nested item (ksToString item)) :: reprEntries entries

def reprFields : List (String × Datum) → List String
  | [] => []
  | (name, item) :: fields => (name ++ ": " ++ nested item (ksToString item)) :: reprFields fields

def reprPayload : Option Datum → String
  | none => ""
  | some item => "(" ++ nested item (ksToString item) ++ ")"
end

end Datum

/-! ## The Go runtime's printer -/

namespace Go

/-- A value of the Go runtime: what an `any` of the emitted program holds. A `KsMap` and a
`KsStruct` keep the order of their keys beside the table of their values. -/
inductive GoValue where
  | unit
  | bool (b : Bool)
  | int64 (i : Int64)
  | string (s : String)
  | error (message : String)
  | strings (items : List String)
  | slice (items : List GoValue)
  | ksMap (keys : List String) (values : List (String × GoValue))
  | ksStruct (typeName : String) (order : List String) (fields : List (String × GoValue))
  | ksEnum (enumName variant : String) (payload : Option GoValue)
  deriving BEq, Inhabited

/-- The hexadecimal digits of the low `width` nibbles of a number. -/
def lowerhex : (width : Nat) → Nat → List Char
  | 0, _ => []
  | width + 1, n => lowerhex width (n / 16) ++ [Nat.digitChar (n % 16)]

/-- `appendEscapedRune` of `strconv`, for text that is not restricted to ASCII. -/
def appendEscapedRune (isPrint : Char → Bool) (quote r : Char) : List Char :=
  if r = quote ∨ r = '\\' then ['\\', r]
  else if isPrint r then [r]
  else if r = '\x07' then ['\\', 'a']
  else if r = '\x08' then ['\\', 'b']
  else if r = '\x0c' then ['\\', 'f']
  else if r = '\n' then ['\\', 'n']
  else if r = '\r' then ['\\', 'r']
  else if r = '\t' then ['\\', 't']
  else if r = '\x0b' then ['\\', 'v']
  else if r.toNat < 0x20 ∨ r.toNat = 0x7f then '\\' :: 'x' :: lowerhex 2 r.toNat
  else if r.toNat < 0x10000 then '\\' :: 'u' :: lowerhex 4 r.toNat
  else '\\' :: 'U' :: lowerhex 8 r.toNat

/-- `strconv.Quote`. -/
def quote (isPrint : Char → Bool) (s : String) : String :=
  ofList ('"' :: (s.toList.flatMap (appendEscapedRune isPrint '"') ++ ['"']))

/-- The text at a key of a table of texts; a missing key reads as `nil`. -/
def textAt (texts : List (String × String)) (key : String) : String :=
  (texts.lookup key).getD "<nil>"

section Printer

variable (isPrint : Char → Bool)

/-- `ksRepr`, given what `ksToString` writes. -/
def nested (v : GoValue) (written : String) : String := match v with
  | .string s => quote isPrint s
  | _ => written

mutual
/-- `ksToString`. -/
def ksToString : GoValue → String
  | .string s => s
  | .bool b => if b then "true" else "false"
  | .int64 i => Datum.decimal i.toInt
  | .unit => "unit"
  | .error message => message
  | .ksEnum _ variant payload => variant ++ payloadText payload
  | .strings items => "[" ++ ", ".intercalate (items.map (quote isPrint)) ++ "]"
  | .slice items => "[" ++ ", ".intercalate (reprAll items) ++ "]"
  | .ksMap keys values =>
    let texts := reprTable values
    "\x7b" ++ ", ".intercalate
      (keys.map fun key => quote isPrint key ++ ": " ++ textAt texts key) ++ "\x7d"
  | .ksStruct typeName order fields =>
    let texts := reprTable fields
    typeName ++ " \x7b " ++ ", ".intercalate
      (order.map fun name => name ++ ": " ++ textAt texts name) ++ " \x7d"

def reprAll : List GoValue → List String
  | [] => []
  | item :: items => nested isPrint item (ksToString item) :: reprAll items

def reprTable : List (String × GoValue) → List (String × String)
  | [] => []
  | (key, item) :: entries => (key, nested isPrint item (ksToString item)) :: reprTable entries

def payloadText : Option GoValue → String
  | none => ""
  | some item => "(" ++ ksToString item ++ ")"
end

end Printer

end Go

namespace Datum

mutual
/-- The value of the Go runtime that stands for a datum. -/
def represent : Datum → Go.GoValue
  | .unit => .unit
  | .bool b => .bool b
  | .int i => .int64 (Int64.ofInt i)
  | .str s => .string s
  | .error message => .error message
  | .list items => .slice (representItems items)
  | .map entries => .ksMap (entries.map Prod.fst) (representEntries entries)
  | .struct typeName fields _ =>
    .ksStruct typeName (fields.map Prod.fst) (representEntries fields)
  | .enum enumName variant payload _ => .ksEnum enumName variant (representPayload payload)

def representItems : List Datum → List Go.GoValue
  | [] => []
  | item :: items => represent item :: representItems items

def representEntries : List (String × Datum) → List (String × Go.GoValue)
  | [] => []
  | (key, item) :: entries => (key, represent item) :: representEntries entries

def representPayload : Option Datum → Option Go.GoValue
  | none => none
  | some item => some (represent item)
end

end Datum

/-! ## When the two printers agree -/

/-- `strconv.Quote` changes nothing in the text. -/
def QuotedAsIs (isPrint : Char → Bool) (s : String) : Prop :=
  ∀ c ∈ s.toList, c ≠ '"' ∧ c ≠ '\\' ∧ isPrint c = true

namespace Datum

section Alike

variable (isPrint : Char → Bool)

/-- The condition on a datum inside a container, given the one on the datum alone. -/
def NestedAlike (v : Datum) (alike : Prop) : Prop := match v with
  | .str s => QuotedAsIs isPrint s
  | _ => alike

/-- The condition on the payload of an enum value, which is no text. -/
def CarriedAlike (v : Datum) (alike : Prop) : Prop := match v with
  | .str _ => False
  | _ => alike

mutual
/-- Every text directly inside a List, a Map or a struct, the keys of a Map included, is
one that quoting leaves alone, and no enum value has a text as its payload. -/
def PrintsAlike : Datum → Prop
  | .unit | .bool _ | .int _ | .str _ | .error _ => True
  | .list items => ItemsAlike items
  | .map entries => EntriesAlike entries
  | .struct _ fields _ => FieldsAlike fields
  | .enum _ _ payload _ => PayloadAlike payload

def ItemsAlike : List Datum → Prop
  | [] => True
  | item :: items => NestedAlike isPrint item (PrintsAlike item) ∧ ItemsAlike items

def EntriesAlike : List (String × Datum) → Prop
  | [] => True
  | (key, item) :: entries =>
    (QuotedAsIs isPrint key ∧ NestedAlike isPrint item (PrintsAlike item)) ∧ EntriesAlike entries

def FieldsAlike : List (String × Datum) → Prop
  | [] => True
  | (_, item) :: fields => NestedAlike isPrint item (PrintsAlike item) ∧ FieldsAlike fields

def PayloadAlike : Option Datum → Prop
  | none => True
  | some item => CarriedAlike item (PrintsAlike item)
end

end Alike

end Datum

/-! ### Quotation -/

section Quotation

variable (isPrint : Char → Bool)

theorem appendEscapedRune_of_plain {r : Char} (notQuote : r ≠ '"') (notEscape : r ≠ '\\')
    (printed : isPrint r = true) : Go.appendEscapedRune isPrint '"' r = [r] := by
  simp [Go.appendEscapedRune, notQuote, notEscape, printed]

theorem appendEscapedRune_of_not_plain {r : Char}
    (escaped : ¬ (r ≠ '"' ∧ r ≠ '\\' ∧ isPrint r = true)) :
    ∃ rest, Go.appendEscapedRune isPrint '"' r = '\\' :: rest := by
  unfold Go.appendEscapedRune
  by_cases always : r = '"' ∨ r = '\\'
  · exact ⟨[r], by rw [if_pos always]⟩
  · have hidden : isPrint r ≠ true := by
      intro printed
      apply escaped
      rw [not_or] at always
      exact ⟨always.1, always.2, printed⟩
    rw [if_neg always, if_neg hidden]
    repeat' split
    all_goals exact ⟨_, rfl⟩

theorem appendEscapedRune_backslash : Go.appendEscapedRune isPrint '"' '\\' = ['\\', '\\'] := by
  simp [Go.appendEscapedRune]

/-- Once the quoted text is ahead by a backslash it stays ahead: the plain text has to
spend a backslash of its own on each, and every backslash is doubled. -/
theorem diverge_of_pending (s : List Char) (pending : Nat) :
    Diverge (s ++ ['"']) (List.replicate (pending + 1) '\\' ++
      (s.flatMap (Go.appendEscapedRune isPrint '"') ++ ['"'])) := by
  induction s generalizing pending with
  | nil =>
    rw [List.replicate_succ]
    exact diverge_cons (by decide) _ _
  | cons c s ih =>
    by_cases backslash : c = '\\'
    · subst backslash
      have shifted : List.replicate (pending + 1) '\\' ++
          ((('\\' :: s).flatMap (Go.appendEscapedRune isPrint '"')) ++ ['"']) =
          '\\' :: (List.replicate (pending + 1 + 1) '\\' ++
            (s.flatMap (Go.appendEscapedRune isPrint '"') ++ ['"'])) := by
        rw [List.flatMap_cons, appendEscapedRune_backslash, List.append_assoc, ← List.append_assoc]
        change List.replicate (pending + 1) '\\' ++ List.replicate 2 '\\' ++ _ =
          List.replicate (pending + 1 + 1 + 1) '\\' ++ _
        rw [List.replicate_append_replicate]
      rw [shifted]
      exact (ih (pending + 1)).cons '\\'
    · rw [List.replicate_succ]
      exact diverge_cons backslash _ _

/-- The text between quotation marks and the quoted text agree or diverge. -/
theorem quotation_decides (s : List Char) :
    Decides (∀ c ∈ s, c ≠ '"' ∧ c ≠ '\\' ∧ isPrint c = true) (s ++ ['"'])
      (s.flatMap (Go.appendEscapedRune isPrint '"') ++ ['"']) := by
  induction s with
  | nil => exact (Decides.refl _).congr (by simp)
  | cons c s ih =>
    by_cases plain : c ≠ '"' ∧ c ≠ '\\' ∧ isPrint c = true
    · rw [flatMap_cons, appendEscapedRune_of_plain isPrint plain.1 plain.2.1 plain.2.2]
      exact (ih.prepend [c]).congr (by simp [plain])
    · refine ⟨fun all => absurd (all c (by simp)) plain, fun _ => ?_⟩
      by_cases backslash : c = '\\'
      · subst backslash
        rw [flatMap_cons, appendEscapedRune_backslash]
        exact (diverge_of_pending isPrint s 0).cons '\\'
      · obtain ⟨rest, starts⟩ := appendEscapedRune_of_not_plain isPrint plain
        rw [flatMap_cons, starts]
        exact diverge_cons backslash _ _

theorem quote_decides (s : String) :
    Decides (QuotedAsIs isPrint s) ("\"" ++ s ++ "\"").toList (Go.quote isPrint s).toList := by
  have marks : ("\"" ++ s ++ "\"").toList = ['"'] ++ (s.toList ++ ['"']) := by simp
  have quoted : (Go.quote isPrint s).toList =
      ['"'] ++ (s.toList.flatMap (Go.appendEscapedRune isPrint '"') ++ ['"']) := by
    simp [Go.quote]
  rw [marks, quoted]
  exact (quotation_decides isPrint s.toList).prepend ['"']

/-- A text between quotation marks never begins like the text itself before a closing
bracket: every quotation mark the text starts with only moves the question on. -/
theorem diverge_marked (s : List Char) : Diverge ('"' :: (s ++ ['"', ')'])) (s ++ [')']) := by
  induction s with
  | nil => exact diverge_cons (by decide) _ _
  | cons c s ih =>
    by_cases mark : c = '"'
    · subst mark
      exact ih.cons '"'
    · exact diverge_cons (fun same => mark same.symm) _ _

end Quotation

/-! ### Values -/

theorem bmod_of_inRange {i : Int} (range : InRange i) : (Int64.ofInt i).toInt = i := by
  obtain ⟨low, high⟩ := range
  rw [Int64.toInt_ofInt]
  simp only [intMin, intMax] at low high
  apply Int.bmod_eq_of_le <;> simp only [Int64.size] <;> omega

/-- Looking a key up among the texts of distinct keys. -/
theorem textAt_cons_self (key text : String) (texts : List (String × String)) :
    Go.textAt ((key, text) :: texts) key = text := by
  simp [Go.textAt]

theorem textAt_cons_of_ne {key other : String} (different : other ≠ key) (text : String)
    (texts : List (String × String)) :
    Go.textAt ((key, text) :: texts) other = Go.textAt texts other := by
  have missed : (other == key) = false := by simpa using different
  simp [Go.textAt, lookup_cons, missed]

/-- Reading distinct keys in order reads the texts in order. -/
theorem map_textAt (write : String → String → String) (texts : List (String × String))
    (distinct : (texts.map fst).Nodup) :
    ((texts.map fst).map fun key => write key (Go.textAt texts key)) =
      texts.map fun entry => write entry.1 entry.2 := by
  induction texts with
  | nil => rfl
  | cons entry texts ih =>
    obtain ⟨key, text⟩ := entry
    simp only [map_cons, nodup_cons] at distinct
    simp only [map_cons, textAt_cons_self, ← ih distinct.2]
    congr 1
    apply map_congr_left
    intro other member
    rw [textAt_cons_of_ne]
    intro same
    exact distinct.1 (same ▸ member)

namespace Datum

section Agreement

variable (isPrint : Char → Bool)

theorem reprTable_keys (entries : List (String × Datum)) :
    (Go.reprTable isPrint (representEntries entries)).map fst = entries.map fst := by
  induction entries with
  | nil => simp [representEntries, Go.reprTable]
  | cons entry entries ih =>
    obtain ⟨key, item⟩ := entry
    simp [representEntries, Go.reprTable, ih]

theorem map_reprTable (write : String → String → String) (entries : List (String × Datum))
    (distinct : (entries.map fst).Nodup) :
    ((entries.map fst).map fun key => write key
        (Go.textAt (Go.reprTable isPrint (representEntries entries)) key)) =
      (Go.reprTable isPrint (representEntries entries)).map
        fun entry => write entry.1 entry.2 := by
  have keys := reprTable_keys isPrint entries
  rw [← map_textAt write _ (keys ▸ distinct), keys]

/-- Inside a container the printers agree or diverge as they do on the datum alone, texts
apart. -/
theorem nested_decides {v : Datum} {P : Prop} (alone : Decides P v.ksToString.toList
      (Go.ksToString isPrint v.represent).toList) :
    Decides (NestedAlike isPrint v P) (nested v v.ksToString).toList
      (Go.nested isPrint v.represent (Go.ksToString isPrint v.represent)).toList := by
  cases v with
  | str s => exact quote_decides isPrint s
  | unit | bool | int | error | list | map | struct | enum => exact alone

/-- The payload of an enum value: a text always diverges. -/
theorem carried_decides {v : Datum} {P : Prop} (alone : Decides P v.ksToString.toList
      (Go.ksToString isPrint v.represent).toList) :
    Decides (CarriedAlike v P) ("(" ++ nested v v.ksToString ++ ")").toList
      ("(" ++ Go.ksToString isPrint v.represent ++ ")").toList := by
  simp only [toList_append, append_assoc]
  apply Decides.prepend
  cases v with
  | str s =>
    refine ⟨False.elim, fun _ => ?_⟩
    have marked := diverge_marked s.toList
    simpa [nested, represent, Go.ksToString] using marked
  | unit | bool | int | error | list | map | struct | enum => exact alone.followedBy _

mutual
theorem ksToString_decides : ∀ (v : Datum), v.Valid →
    Decides (v.PrintsAlike isPrint) v.ksToString.toList (Go.ksToString isPrint v.represent).toList
  | .unit, _ | .bool _, _ | .str _, _ | .error _, _ => Decides.refl _
  | .int i, valid => by
    simp only [represent, Go.ksToString, bmod_of_inRange valid]
    exact Decides.refl _
  | .list items, valid => by
    have inner := (reprItems_decides items valid).intercalate ", ".toList
    simp only [ksToString, represent, Go.ksToString, toList_append, toList_intercalate]
    exact (inner.prepend _).followedBy _
  | .map entries, valid => by
    have inner := (reprEntries_decides entries valid.2).intercalate ", ".toList
    simp only [ksToString, represent, Go.ksToString, toList_append,
      toList_intercalate,
      map_reprTable isPrint (fun key text => Go.quote isPrint key ++ ": " ++ text) entries valid.1]
    exact (inner.prepend _).followedBy _
  | .struct typeName fields arguments, valid => by
    have inner := (reprFields_decides fields valid.2).intercalate ", ".toList
    simp only [ksToString, represent, Go.ksToString, toList_append,
      toList_intercalate,
      map_reprTable isPrint (fun name text => name ++ ": " ++ text) fields valid.1]
    exact (inner.prepend _).followedBy _
  | .enum enumName variant payload arguments, valid => by
    simp only [ksToString, represent, Go.ksToString, toList_append]
    exact (reprPayload_decides payload valid).prepend _

theorem reprItems_decides : ∀ (items : List Datum), ValidItems items →
    DecidesAll (ItemsAlike isPrint items) ((reprItems items).map toList)
      ((Go.reprAll isPrint (representItems items)).map toList)
  | [], _ => .nil
  | item :: items, valid =>
    .cons (nested_decides isPrint (ksToString_decides item valid.1))
      (reprItems_decides items valid.2)

theorem reprEntries_decides : ∀ (entries : List (String × Datum)), ValidEntries entries →
    DecidesAll (EntriesAlike isPrint entries) ((reprEntries entries).map toList)
      (((Go.reprTable isPrint (representEntries entries)).map fun entry =>
        Go.quote isPrint entry.1 ++ ": " ++ entry.2).map toList)
  | [], _ => .nil
  | (key, item) :: entries, valid => by
    refine .cons ?_ (reprEntries_decides entries valid.2)
    have marked := quote_decides isPrint key
    have shown := nested_decides isPrint (ksToString_decides item valid.1)
    have whole := (marked.followedBy ": ".toList).append shown
    simpa only [← toList_append] using whole

theorem reprFields_decides : ∀ (fields : List (String × Datum)), ValidEntries fields →
    DecidesAll (FieldsAlike isPrint fields) ((reprFields fields).map toList)
      (((Go.reprTable isPrint (representEntries fields)).map fun entry =>
        entry.1 ++ ": " ++ entry.2).map toList)
  | [], _ => .nil
  | (name, item) :: fields, valid => by
    refine .cons ?_ (reprFields_decides fields valid.2)
    have shown := nested_decides isPrint (ksToString_decides item valid.1)
    simpa only [← toList_append] using shown.prepend (name ++ ": ").toList

theorem reprPayload_decides : ∀ (payload : Option Datum), ValidPayload payload →
    Decides (PayloadAlike isPrint payload) (reprPayload payload).toList
      (Go.payloadText isPrint (representPayload payload)).toList
  | none, _ => Decides.refl _
  | some item, valid => carried_decides isPrint (ksToString_decides item valid)
end

end Agreement

end Datum

/-- The interpreter and the Go binary print a value alike exactly when every text inside a
List, a Map or a struct is one quoting leaves alone and no enum value carries a text. -/
theorem ksToString_represent_iff (isPrint : Char → Bool) (v : KsValue) :
    Go.ksToString isPrint v.datum.represent = v.datum.ksToString ↔ v.datum.PrintsAlike isPrint := by
  rw [← (Datum.ksToString_decides isPrint v.datum v.valid).eq_iff, toList_inj, eq_comm]

/-- `Some("a")` is printed with quotation marks by the interpreter and without them by the
Go binary. -/
theorem ksToString_some_text : ∃ v : KsValue, ∀ isPrint : Char → Bool,
      Go.ksToString isPrint v.datum.represent ≠ v.datum.ksToString := by
  refine ⟨⟨.enum "Option" "Some" (some (.str "a")) [], trivial⟩, fun isPrint same => ?_⟩
  have shown : Go.ksToString isPrint
      (Datum.enum "Option" "Some" (some (.str "a")) []).represent = "Some(a)" := rfl
  rw [shown] at same
  exact absurd same (by decide)

end Koschei
