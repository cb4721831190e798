import Koschei.Authorization.Constraints
import Koschei.Lib.Joining
import Koschei.Lib.Trimming

/-!
# Sealed texts and their spellings

Requests, grants, decisions and permits are sealed by a digest of a text of
several lines. The SHA-256, the HMAC and the digest of the activation plan that
belongs to a tuple of sigils are the `Primitives`.

Texts are stripped and digests put in lower case before they are written into a
sealed text. What is lost is how they were spelled: the white space around a
text and the capitals of a digest.
-/

namespace Koschei.Authorization

open Lib

/-! ## Digests of texts -/

/-- The digests of texts, in hexadecimal: `sha256` of the encoding of a text, `hmac` under a key;
and `compile_activation_plan(sigils).digest`. -/
structure Primitives where
  sha256 : String → String
  hmac : List UInt8 → String → String
  activationPlan : List String → Checked String

def CollisionFree (digestOf : String → String) (texts : List String) : Prop :=
  ∀ a ∈ texts, ∀ b ∈ texts, digestOf a = digestOf b → a = b

variable {digestOf : String → String}

theorem CollisionFree.of_injective
    (injective : ∀ a b, digestOf a = digestOf b → a = b) (texts : List String) :
    CollisionFree digestOf texts :=
  fun a _ b _ same => injective a b same

variable {a b separator row row' value label passed : String}

theorem CollisionFree.pair
    (free : CollisionFree digestOf [a, b]) (same : digestOf a = digestOf b) : a = b :=
  free a mem_cons_self b (mem_cons_of_mem _ mem_cons_self) same

/-- `"\n".join(rows)`. -/
def lines (rows : List String) : String := "\n".intercalate rows

/-- The newlines in a text. -/
def newlines (value : String) : Nat := value.toList.count '\n'

variable {c d : Char} {rows rows' : List String}

/-- Rows that are joined to one text are the same when corresponding rows contain equally many
separators. -/
theorem rows_eq_of_intercalate (single : separator.toList = [c])
    (same : separator.intercalate rows = separator.intercalate rows')
    (counts : rows.map (fun row => row.toList.count c) = rows'.map fun row => row.toList.count c) :
    rows = rows' := by
  have joined := congrArg toList same
  rw [toList_intercalate, toList_intercalate, single] at joined
  have counted : (rows.map toList).map (List.count c) = (rows'.map toList).map (List.count c) := by
    rw [map_map, map_map]
    exact counts
  have rowsSame := Joining.rows_eq_of_count counted joined
  exact List.map_injective_iff.mpr (fun _ _ => toList_inj.mp) rowsSame

/-- Rows that are written as the same lines are the same when corresponding rows contain equally
many newlines. -/
theorem rows_eq_of_lines (same : lines rows = lines rows')
    (counts : rows.map newlines = rows'.map newlines) : rows = rows' :=
  rows_eq_of_intercalate rfl same counts

/-- Rows without separators are recovered from the text they are joined to. -/
theorem rows_eq_of_plain
    (single : separator.toList = [c]) (some_row : rows ≠ []) (some_row' : rows' ≠ [])
    (plain : ∀ row ∈ rows, c ∉ row.toList) (plain' : ∀ row ∈ rows', c ∉ row.toList)
    (same : separator.intercalate rows = separator.intercalate rows') : rows = rows' := by
  have joined := congrArg toList same
  rw [toList_intercalate, toList_intercalate, single] at joined
  have rowsSame : rows.map toList = rows'.map toList := by
    refine Joining.rows_eq_of_plain ?_ ?_ ?_ ?_ joined
    · exact fun none => some_row (map_eq_nil_iff.mp none)
    · exact fun none => some_row' (map_eq_nil_iff.mp none)
    · exact List.forall_mem_map.mpr plain
    · exact List.forall_mem_map.mpr plain'
  exact List.map_injective_iff.mpr (fun _ _ => toList_inj.mp) rowsSame

/-- Texts with one beginning are known from their ends. -/
theorem append_cancel {beginning a b : String} (same : beginning ++ a = beginning ++ b) : a = b := by
  have characters := congrArg toList same
  rw [toList_append, toList_append, List.append_cancel_left_eq] at characters
  exact toList_inj.mp characters

/-! ## Decimal numerals -/

theorem natRepr_injective {m n : Nat} (same : m.repr = n.repr) : m = n := by
  have digits := congrArg toList same
  rw [Nat.toList_repr, Nat.toList_repr] at digits
  rw [← Nat.ofDigitChars_ten_toDigits (n := m), digits, Nat.ofDigitChars_ten_toDigits]

theorem intRepr_of_nonneg {i : Int} (nonnegative : 0 ≤ i) : toString i = i.toNat.repr := by
  rw [Int.toString_eq_repr, Int.repr_eq_if, if_pos nonnegative]

theorem toString_injective {i j : Int} (first : 0 ≤ i) (second : 0 ≤ j)
    (same : toString i = toString j) : i = j := by
  rw [intRepr_of_nonneg first, intRepr_of_nonneg second] at same
  have naturals := natRepr_injective same
  omega

theorem newlines_toString {i : Int} (nonnegative : 0 ≤ i) : newlines (toString i) = 0 := by
  rw [intRepr_of_nonneg nonnegative, newlines, Nat.toList_repr, count_eq_zero]
  intro member
  have digit := Nat.isDigit_of_mem_toDigits (by decide) (by decide) member
  exact absurd digit (by decide)

/-- Joined texts of as many rows contain together equally many newlines. -/
theorem sum_newlines_of_lines (same : lines rows = lines rows')
    (lengths : rows.length = rows'.length) :
    (rows.map newlines).sum = (rows'.map newlines).sum := by
  have joined := congrArg toList same
  unfold lines at joined
  rw [toList_intercalate, toList_intercalate] at joined
  have counted := Joining.count_rows (s := '\n') (by simpa using lengths) joined
  rw [map_map, map_map] at counted
  exact counted

theorem toList_lines_cons (more : rows ≠ []) :
    (lines (row :: rows)).toList = row.toList ++ '\n' :: (lines rows).toList := by
  unfold lines
  rw [toList_intercalate, toList_intercalate, map_cons]
  exact Joining.intercalate_cons (by simpa using more)

/-- Lines are read one after the other when it is known how many newlines the first row has. -/
theorem lines_cons_inj (more : rows ≠ [])
    (more' : rows' ≠ []) (counts : newlines row = newlines row')
    (same : lines (row :: rows) = lines (row' :: rows')) : row = row' ∧ lines rows = lines rows' := by
  have characters := congrArg toList same
  rw [toList_lines_cons more, toList_lines_cons more'] at characters
  obtain ⟨first, rest⟩ := Joining.append_inj_of_count counts characters
  exact ⟨toList_inj.mp first, toList_inj.mp rest⟩

/-- A row that does not end with a newline, and that is followed by different letters in two
texts, is known from the two. -/
theorem row_eq_of_continuations {rows rows' others others' : List String}
    {a b : Char} (first : lines (row :: rows) = lines (row' :: rows'))
    (second : lines (row :: others) = lines (row' :: others')) (apart : a ≠ b)
    (ends : row.toList.getLast? ≠ some '\n') (ends' : row'.toList.getLast? ≠ some '\n')
    (begins : (lines rows).toList.head? = some a) (begins' : (lines rows').toList.head? = some a)
    (goesOn : (lines others).toList.head? = some b)
    (goesOn' : (lines others').toList.head? = some b) : row = row' := by
  have some_row : ∀ {rows : List String} {c : Char}, (lines rows).toList.head? = some c →
      rows ≠ [] := by
    rintro _ _ begins rfl
    cases begins
  have one := congrArg toList first
  have other := congrArg toList second
  rw [toList_lines_cons (some_row begins), toList_lines_cons (some_row begins')] at one
  rw [toList_lines_cons (some_row goesOn), toList_lines_cons (some_row goesOn')] at other
  obtain ⟨u, same⟩ := List.head?_eq_some_iff.mp begins
  obtain ⟨u', same'⟩ := List.head?_eq_some_iff.mp begins'
  obtain ⟨v, next⟩ := List.head?_eq_some_iff.mp goesOn
  obtain ⟨v', next'⟩ := List.head?_eq_some_iff.mp goesOn'
  rw [same, same'] at one
  rw [next, next'] at other
  exact toList_inj.mp (Joining.eq_of_continuations apart ends ends' one other)

theorem head?_lines {name value : String} (begins : name.toList.head? = some c) :
    (lines ((name ++ value) :: rows)).toList.head? = some c := by
  obtain ⟨rest, same⟩ := List.head?_eq_some_iff.mp begins
  cases rows with
  | nil =>
    unfold lines
    rw [String.intercalate_singleton, toList_append, same]
    rfl
  | cons row rows =>
    rw [toList_lines_cons (cons_ne_nil _ _), toList_append, same]
    rfl

/-- Two lines as one row. -/
theorem lines_pair (first second : String) (more : rows ≠ []) :
    lines (first :: second :: rows) = lines (lines [first, second] :: rows) := by
  apply toList_inj.mp
  rw [toList_lines_cons (cons_ne_nil _ _), toList_lines_cons more, toList_lines_cons more,
    toList_lines_cons (cons_ne_nil _ _), append_assoc]
  have single : lines [second] = second := String.intercalate_singleton
  rw [single]
  rfl

theorem newlines_append (a b : String) : newlines (a ++ b) = newlines a + newlines b := by
  unfold newlines
  rw [toList_append, count_append]

/-- What a first row says under a name is read first. -/
theorem lines_named_inj {name value value' next next' : String}
    (counts : newlines value = newlines value')
    (same : lines ((name ++ value) :: next :: rows) = lines ((name ++ value') :: next' :: rows')) :
    value = value' ∧ lines (next :: rows) = lines (next' :: rows') := by
  have counted : newlines (name ++ value) = newlines (name ++ value') := by
    rw [newlines_append, newlines_append, counts]
  obtain ⟨row, rest⟩ := lines_cons_inj (cons_ne_nil _ _) (cons_ne_nil _ _) counted same
  exact ⟨append_cancel row, rest⟩

/-! ## The white space around a text -/

/-- The white space a text begins and ends with. -/
def margins (value : String) : List Char × List Char :=
  (value.toList.takeWhile isSpace, (value.toList.dropWhile isSpace).rtakeWhile isSpace)

theorem toList_stripped (value : String) : (stripped value).toList = trim isSpace value.toList :=
  toList_ofList

theorem toList_eq_margins (value : String) :
    value.toList = (margins value).1 ++ (stripped value).toList ++ (margins value).2 := by
  rw [toList_stripped, margins, trim, append_assoc, List.rdropWhile_append_rtakeWhile,
    List.takeWhile_append_dropWhile]

/-- A text is known from what is left of it and what was around it. -/
theorem eq_of_stripped (same : stripped a = stripped b)
    (around : margins a = margins b) : a = b := by
  apply toList_inj.mp
  rw [toList_eq_margins a, toList_eq_margins b, same, around]

theorem stripped_stripped (value : String) : stripped (stripped value) = stripped value := by
  apply toList_inj.mp
  rw [toList_stripped, toList_stripped]
  exact trim_of_clean (trim_clean _ _)

theorem text_eq_ok (accepted : text value label = .ok passed) :
    passed = stripped value ∧ passed ≠ "" := by
  unfold text at accepted
  split at accepted
  · cases accepted
  · rename_i nonempty
    cases accepted
    exact ⟨rfl, nonempty⟩

theorem bind_text_iff {β : Type} {f : String → Checked β} {b : β} :
    text value label >>= f = .ok b ↔ stripped value ≠ "" ∧ f (stripped value) = .ok b :=
  bind_iff (fun nonempty => if_neg nonempty) fun _ accepted => by
    obtain ⟨rfl, nonempty⟩ := text_eq_ok accepted
    exact ⟨rfl, nonempty⟩

/-- A text that neither begins nor ends with white space is stripped. -/
theorem stripped_ofList {letters : List Char} (first : letters.head?.any isSpace = false)
    (last : letters.getLast?.any isSpace = false) : stripped (ofList letters) = ofList letters := by
  have clean : CleanEnds isSpace letters := by
    refine ⟨fun c isFirst => ?_, fun c isLast => ?_⟩
    · simpa [isFirst] using first
    · simpa [isLast] using last
  apply toList_inj.mp
  rw [toList_stripped, toList_ofList]
  exact trim_of_clean clean

theorem text_ofList {letters : List Char} (label : String) (nonempty : letters ≠ [])
    (first : letters.head?.any isSpace = false) (last : letters.getLast?.any isSpace = false) :
    text (ofList letters) label = .ok (ofList letters) := by
  have some : ofList letters ≠ "" := by
    intro empty
    exact nonempty (by simpa using congrArg toList empty)
  rw [text, stripped_ofList first last, if_neg some]

/-- A stripped text does not end with a newline. -/
theorem getLast?_stripped (value : String) : (stripped value).toList.getLast? ≠ some '\n' := by
  intro last
  rw [toList_stripped] at last
  exact absurd ((trim_clean isSpace value.toList).last _ last) (by decide)

/-! ## The capitals of a digest -/

/-- `value.lower()`, for the digests: a text with a letter outside ASCII in it is no digest before
and after, whatever its lower case is. -/
def lowered (value : String) : String := ofList (value.toList.map Char.toLower)

/-- Where a text has capitals. -/
def capitals (value : String) : List Bool := value.toList.map Char.isUpper

theorem toLower_of_not_isUpper (plain : c.isUpper = false) : c.toLower = c := by
  unfold Char.isUpper at plain
  unfold Char.toLower
  rw [dif_neg]
  intro upper
  rw [decide_eq_false_iff_not] at plain
  exact plain upper

theorem toNat_toLower (upper : c.isUpper = true) : c.toLower.toNat = c.toNat + 32 := by
  have bounds : 'A'.val ≤ c.val ∧ c.val ≤ 'Z'.val := by
    unfold Char.isUpper at upper
    exact of_decide_eq_true upper
  unfold Char.toLower
  rw [dif_pos bounds]
  have high : c.val.toNat ≤ 90 := UInt32.le_iff_toNat_le.mp bounds.2
  have sum : (c.val + ('a'.val - 'A'.val)).toNat = c.val.toNat + 32 := by
    rw [UInt32.toNat_add]
    have step : ('a'.val - 'A'.val).toNat = 32 := rfl
    omega
  exact sum

theorem isUpper_toLower (c : Char) : c.toLower.isUpper = false := by
  cases upper : c.isUpper with
  | false => rw [toLower_of_not_isUpper upper, upper]
  | true =>
    have number := toNat_toLower upper
    unfold Char.isUpper at upper ⊢
    have low : 65 ≤ c.toNat := UInt32.le_iff_toNat_le.mp (of_decide_eq_true upper).1
    apply decide_eq_false
    rintro ⟨-, high⟩
    have bound : c.toLower.toNat ≤ 90 := UInt32.le_iff_toNat_le.mp high
    omega

theorem toLower_injective (same : c.toLower = d.toLower)
    (alike : c.isUpper = d.isUpper) : c = d := by
  cases upper : c.isUpper with
  | false =>
    rw [toLower_of_not_isUpper upper, toLower_of_not_isUpper (alike ▸ upper)] at same
    exact same
  | true =>
    have first := toNat_toLower upper
    have second := toNat_toLower (alike ▸ upper)
    rw [same] at first
    apply Char.toNat_inj.mp
    omega

theorem map_toLower_injective {a b : List Char} (same : a.map Char.toLower = b.map Char.toLower)
    (alike : a.map Char.isUpper = b.map Char.isUpper) : a = b := by
  induction a generalizing b with
  | nil => exact (map_eq_nil_iff.mp same.symm).symm
  | cons c a ih =>
    cases b with
    | nil => cases same
    | cons d b =>
      rw [map_cons, map_cons, cons.injEq] at same alike
      rw [toLower_injective same.1 alike.1, ih same.2 alike.2]

/-- A digest is known from its lower case and its capitals. -/
theorem eq_of_lowered (same : lowered a = lowered b) (alike : capitals a = capitals b) : a = b := by
  apply toList_inj.mp
  refine map_toLower_injective ?_ alike
  have characters := congrArg toList same
  unfold lowered at characters
  rw [toList_ofList, toList_ofList] at characters
  exact characters

theorem lowered_lowered (value : String) : lowered (lowered value) = lowered value := by
  apply toList_inj.mp
  unfold lowered
  rw [toList_ofList, toList_ofList, map_map]
  apply map_congr_left
  intro c _
  exact toLower_of_not_isUpper (isUpper_toLower c)

def zeroDigest : String := ofList (replicate 64 '0')

/-- A digest in hexadecimal, in lower case and not zero. -/
structure IsDigest (value : String) : Prop where
  length : value.length = 64
  hexadecimal : ∀ c ∈ value.toList, isHex c = true
  nonzero : value ≠ zeroDigest

/-- `_digest` of `authorization_decision_v1.py` and of `execution_permit_v1.py`. -/
def hexDigest (value label : String) : Checked String := do
  refuse (value.length ≠ 64) (label ++ " must be a 64-character digest")
  refuse ((lowered value).toList.any (fun c => !isHex c) ∨ lowered value = zeroDigest)
    (label ++ " must be a non-zero hexadecimal digest")
  .ok (lowered value)

theorem length_lowered (value : String) : (lowered value).length = value.length := by
  unfold lowered
  rw [String.length_ofList, length_map]
  rfl

theorem isDigest_of_checks (length : ¬ value.length ≠ 64)
    (hexadecimal : ¬ (lowered value).toList.any (fun c => !isHex c) = true)
    (nonzero : lowered value ≠ zeroDigest) : IsDigest (lowered value) := by
  refine ⟨(length_lowered value).trans (not_not.mp length), fun c member => ?_, nonzero⟩
  by_contra other
  exact hexadecimal (any_eq_true.mpr ⟨c, member, by simpa using other⟩)

theorem hexDigest_eq_ok (accepted : hexDigest value label = .ok passed) :
    passed = lowered value ∧ IsDigest passed := by
  unfold hexDigest at accepted
  obtain ⟨_, length, accepted⟩ := bind_eq_ok accepted
  obtain ⟨_, hexadecimal, accepted⟩ := bind_eq_ok accepted
  cases accepted
  have checks := not_or.mp (refuse_eq_ok hexadecimal)
  exact ⟨rfl, isDigest_of_checks (refuse_eq_ok length) checks.1 checks.2⟩

theorem hexDigest_of_isDigest (sound : IsDigest (lowered value)) :
    hexDigest value label = .ok (lowered value) := by
  have length : ¬ value.length ≠ 64 := not_not.mpr (length_lowered value ▸ sound.length)
  have checks : ¬ ((lowered value).toList.any (fun c => !isHex c) = true ∨
      lowered value = zeroDigest) := by
    rintro (other | zero)
    · obtain ⟨c, member, wrong⟩ := any_eq_true.mp other
      rw [sound.hexadecimal c member] at wrong
      cases wrong
    · exact sound.nonzero zero
  unfold hexDigest
  rw [bind_of_ok (refuse_of_not length), bind_of_ok (refuse_of_not checks)]

theorem bind_hexDigest_iff {β : Type} {f : String → Checked β} {b : β} :
    hexDigest value label >>= f = .ok b ↔ IsDigest (lowered value) ∧ f (lowered value) = .ok b :=
  bind_iff hexDigest_of_isDigest fun _ accepted => by
    obtain ⟨rfl, sound⟩ := hexDigest_eq_ok accepted
    exact ⟨rfl, sound⟩

theorem isUpper_of_isHex (hexadecimal : isHex c = true) : c.isUpper = false := by
  unfold isHex isDigit at hexadecimal
  rw [or_eq_true, and_eq_true] at hexadecimal
  unfold Char.isUpper
  apply decide_eq_false
  rintro ⟨low, high⟩
  have least : 65 ≤ c.val.toNat := UInt32.le_iff_toNat_le.mp low
  have most : c.val.toNat ≤ 90 := UInt32.le_iff_toNat_le.mp high
  rcases hexadecimal with digit | letter
  · have bound : c.val.toNat ≤ 57 := UInt32.le_iff_toNat_le.mp (of_decide_eq_true digit.2)
    omega
  · rw [and_eq_true] at letter
    have bound : 97 ≤ c.val.toNat := UInt32.le_iff_toNat_le.mp (of_decide_eq_true letter.1)
    omega

theorem lowered_of_isDigest (sound : IsDigest value) : lowered value = value := by
  apply toList_inj.mp
  unfold lowered
  rw [toList_ofList]
  calc value.toList.map Char.toLower = value.toList.map id := map_congr_left fun c member =>
          toLower_of_not_isUpper (isUpper_of_isHex (sound.hexadecimal c member))
    _ = value.toList := map_id _

/-- A digest of one repeated digit. -/
def repeated (c : Char) : String := ofList (replicate 64 c)

theorem replicate_ne {n : Nat} (positive : n ≠ 0) (apart : c ≠ d) :
    replicate n c ≠ replicate n d := by
  intro same
  have member : c ∈ replicate n c := List.mem_replicate.mpr ⟨positive, rfl⟩
  rw [same] at member
  exact apart (List.eq_of_mem_replicate member)

theorem repeated_ne_zeroDigest (nonzero : c ≠ '0') : repeated c ≠ zeroDigest := by
  intro same
  unfold repeated zeroDigest at same
  exact replicate_ne (Nat.succ_ne_zero 63) nonzero (ofList_inj.mp same)

theorem isDigest_repeated (hexadecimal : isHex c = true) (nonzero : c ≠ '0') :
    IsDigest (repeated c) := by
  refine ⟨?_, fun d member => ?_, repeated_ne_zeroDigest nonzero⟩
  · rw [repeated, String.length_ofList, length_replicate]
  · rw [repeated, toList_ofList] at member
    rw [List.eq_of_mem_replicate member]
    exact hexadecimal

theorem lowered_repeated (c : Char) : lowered (repeated c) = repeated c.toLower := by
  unfold lowered repeated
  rw [toList_ofList, List.map_replicate]

theorem hexDigest_of_sound (sound : IsDigest value) : hexDigest value label = .ok value := by
  have low := lowered_of_isDigest sound
  have passes : hexDigest value label = .ok (lowered value) :=
    hexDigest_of_isDigest (low.symm ▸ sound)
  rw [low] at passes
  exact passes

theorem newlines_of_hexadecimal (hexadecimal : ∀ c ∈ value.toList, isHex c = true) :
    newlines value = 0 := by
  rw [newlines, count_eq_zero]
  intro member
  exact absurd (hexadecimal _ member) (by decide)

end Koschei.Authorization
