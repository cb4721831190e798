import Koschei.Lib.Checks
import Koschei.Types.Text
import Mathlib.Data.List.Sort

/-!
# Constraint sets and their attenuation

`ConstraintSetV1` of `authorization_transition_v1.py`: what an authority allows,
as four sets of names, an optional bound on the magnitude, a validity interval
with an optional end, a delegation depth and the right to delegate again. A
constraint set is built through the checks of `__post_init__`, so the four sets
are sorted, without duplicates and not empty, and a `ConstraintSet` carries that
as a field.

One set attenuates another when it allows no more in any of these respects; a
missing bound is the widest one. `assertAttenuates` is the check of the source,
with its messages in its order, and `Attenuates` is what passing it means.

Digests are hexadecimal texts of a hash of a tag and a JSON payload. The hash
and the case mappings of texts come from a `Library`, about which nothing is
assumed here.
-/

namespace Koschei.Authorization

open Lib

/-! ## Payloads and texts -/

/-- What `json.dumps` is given. -/
inductive Payload where
  | null
  | bool (b : Bool)
  | int (i : Int)
  | str (s : String)
  | list (items : List Payload)
  | object (entries : List (String × Payload))
  deriving BEq, Inhabited

namespace Payload

def optionalInt : Option Int → Payload
  | none => .null
  | some i => .int i

def optionalText : Option String → Payload
  | none => .null
  | some s => .str s

def texts (values : List String) : Payload := .list (values.map .str)

end Payload

/-- What the host provides: the case mappings of texts, and `_hash`, the SHA-256 of a tag and the
canonical JSON text of a payload. -/
structure Library where
  upper : String → String
  lower : String → String
  hash : String → Payload → String

/-- The result of a check: an `AuthorizationTransitionV1Error` has a text. -/
abbrev Checked (α : Type) := Except String α

/-- Raise when a condition holds. -/
def refuse (condition : Prop) [Decidable condition] (message : String) : Checked Unit :=
  if condition then .error message else .ok ()

variable {condition : Prop} {message label : String} {u : Unit}

theorem refuse_eq_ok [Decidable condition]
    (passed : refuse condition message = .ok u) : ¬ condition := by
  unfold refuse at passed
  split at passed
  · cases passed
  · assumption

theorem refuse_of_not [Decidable condition]
    (absent : ¬ condition) : refuse condition message = .ok () := if_neg absent

theorem refuse_iff [Decidable condition] : refuse condition message = .ok u ↔ ¬ condition :=
  ⟨refuse_eq_ok, fun absent => if_neg absent⟩

/-- `value.strip()`. -/
def stripped (value : String) : String := ofList (strip value.toList)

/-- `_text`. -/
def text (value label : String) : Checked String :=
  if stripped value = "" then .error (label ++ " cannot be empty") else .ok (stripped value)

/-- A character of `_HEX`. -/
def isHex (c : Char) : Bool := c.isDigit || ('a' ≤ c && c ≤ 'f')

/-- `_digest`. -/
def digest (library : Library) (value label : String) : Checked String :=
  if value.length ≠ 64 then .error (label ++ " must be a 64-character digest")
  else
    let lowered := library.lower value
    if (lowered.toList.any fun c => !isHex c) || lowered.toList == replicate 64 '0'
    then .error (label ++ " must be a non-zero hexadecimal digest")
    else .ok lowered

/-- `_epoch`. -/
def epochOf (value : Int) (label : String) : Checked Int :=
  if value < 0 then .error (label ++ " must be a non-negative integer") else .ok value

theorem epochOf_eq_ok {value epoch : Int} (passed : epochOf value label = .ok epoch) :
    epoch = value ∧ 0 ≤ value := by
  unfold epochOf at passed
  split at passed
  · cases passed
  · rename_i nonnegative
    cases passed
    exact ⟨rfl, not_lt.mp nonnegative⟩

theorem epochOf_of_nonneg {value : Int} (nonnegative : 0 ≤ value) :
    epochOf value label = .ok value := if_neg (not_lt.mpr nonnegative)

theorem bind_epochOf_iff {β : Type} {value : Int} {f : Int → Checked β} {b : β} :
    epochOf value label >>= f = .ok b ↔ 0 ≤ value ∧ f value = .ok b :=
  bind_iff epochOf_of_nonneg fun _ => epochOf_eq_ok

/-- Every value through `_text`. -/
def textAll (label : String) : List String → Checked (List String)
  | [] => .ok []
  | value :: values => do
    let first ← text value label
    let rest ← textAll label values
    .ok (first :: rest)

/-- `sorted` of a set of texts. -/
def sortedSet (values : List String) : List String :=
  values.dedup.mergeSort fun a b => decide (a ≤ b)

/-! ## Constraint sets -/

/-- The fields of `ConstraintSetV1`. -/
structure ConstraintFields where
  resources : List String
  operations : List String
  arguments : List String
  audience : List String
  magnitudeMax : Option Int
  validFromEpoch : Int
  expiresBeforeEpoch : Option Int
  delegationDepth : Int
  redelegation : Bool
  deriving BEq, DecidableEq, Inhabited

/-- A set of names in its canonical form. -/
structure CanonicalNames (values : List String) : Prop where
  nonempty : values ≠ []
  sorted : values.Pairwise (· ≤ ·)
  nodup : values.Nodup

theorem CanonicalNames.eq_of_subset {first second : List String} (one : CanonicalNames first)
    (other : CanonicalNames second) (there : first ⊆ second) (back : second ⊆ first) :
    first = second := by
  have permuted : first.Perm second :=
    (List.perm_ext_iff_of_nodup one.nodup other.nodup).mpr fun _ => ⟨@there _, @back _⟩
  exact permuted.eq_of_pairwise (fun _ _ _ _ => le_antisymm) one.sorted other.sorted

/-- What `__post_init__` leaves. -/
structure ConstraintFields.Canonical (fields : ConstraintFields) : Prop where
  resources : CanonicalNames fields.resources
  operations : CanonicalNames fields.operations
  arguments : CanonicalNames fields.arguments
  audience : CanonicalNames fields.audience
  magnitude : ∀ bound, fields.magnitudeMax = some bound → 0 ≤ bound
  start : 0 ≤ fields.validFromEpoch
  live : ∀ expiry, fields.expiresBeforeEpoch = some expiry → fields.validFromEpoch < expiry
  depth : 0 ≤ fields.delegationDepth

/-- `sorted` of a set is in order, has no duplicates, and has the members of the set. -/
theorem sortedSet_canonical (values : List String) :
    (sortedSet values).Pairwise (· ≤ ·) ∧ (sortedSet values).Nodup ∧
      ∀ value, value ∈ sortedSet values ↔ value ∈ values := by
  have order : (sortedSet values).Pairwise fun a b => decide (a ≤ b) = true := by
    apply List.pairwise_mergeSort
    · intro a b c first second
      simp only [decide_eq_true_eq] at first second ⊢
      exact le_trans first second
    · intro a b
      simp only [or_eq_true, decide_eq_true_eq]
      exact le_total a b
  refine ⟨order.imp (by simp), (List.mergeSort_perm _ _).nodup_iff.mpr values.nodup_dedup,
    fun value => ?_⟩
  rw [sortedSet, (List.mergeSort_perm _ _).mem_iff, mem_dedup]

theorem sortedSet_of_canonical {values : List String} (canonical : CanonicalNames values) :
    sortedSet values = values := by
  have order : values.Pairwise fun a b => decide (a ≤ b) = true := canonical.sorted.imp (by simp)
  rw [sortedSet, canonical.nodup.dedup, List.mergeSort_of_pairwise order]

/-- A constraint set, as it comes out of its constructor. -/
structure ConstraintSet where
  fields : ConstraintFields
  canonical : fields.Canonical

namespace ConstraintSet

/-- `asdict`. -/
def payload (set : ConstraintSet) : Payload := .object [("resources", .texts set.fields.resources),
    ("operations", .texts set.fields.operations),
    ("arguments", .texts set.fields.arguments),
    ("audience", .texts set.fields.audience),
    ("magnitude_max", .optionalInt set.fields.magnitudeMax),
    ("valid_from_epoch", .int set.fields.validFromEpoch),
    ("expires_before_epoch", .optionalInt set.fields.expiresBeforeEpoch),
    ("delegation_depth", .int set.fields.delegationDepth),
    ("redelegation", .bool set.fields.redelegation)]

/-- `ConstraintSetV1.digest`. -/
def digest (library : Library) (set : ConstraintSet) : String :=
  library.hash "koschei.constraint-set/v1" set.payload

/-- `assert_live`. -/
def assertLive (set : ConstraintSet) (epoch : Int) : Checked Unit := do
  let now ← epochOf epoch "epoch"
  refuse (now < set.fields.validFromEpoch) "constraint set is not live yet"
  match set.fields.expiresBeforeEpoch with
  | none => .ok ()
  | some expiry => refuse (expiry ≤ now) "constraint set has expired"

/-! ## Attenuation -/

/-- A name set that is no part of the parent's. -/
def assertNames (field : String) (child parent : List String) : Checked Unit :=
  refuse (¬ child ⊆ parent) (field ++ " broadens parent authority")

/-- A bound that is wider than the parent's; none is the widest. -/
def assertBound (message : String) (child parent : Option Int) : Checked Unit :=
  match parent, child with
  | none, _ => .ok ()
  | some _, none => .error message
  | some limit, some bound => refuse (limit < bound) message

/-- `assert_attenuates`. -/
def assertAttenuates (child parent : ConstraintSet) (delegationHop : Bool) : Checked Unit := do
  assertNames "resources" child.fields.resources parent.fields.resources
  assertNames "operations" child.fields.operations parent.fields.operations
  assertNames "arguments" child.fields.arguments parent.fields.arguments
  assertNames "audience" child.fields.audience parent.fields.audience
  assertBound "magnitude broadens parent authority" child.fields.magnitudeMax
    parent.fields.magnitudeMax
  refuse (child.fields.validFromEpoch < parent.fields.validFromEpoch)
    "validity start broadens parent authority"
  assertBound "validity end broadens parent authority" child.fields.expiresBeforeEpoch
    parent.fields.expiresBeforeEpoch
  refuse (parent.fields.delegationDepth < child.fields.delegationDepth)
    "delegation_depth broadens parent authority"
  refuse (child.fields.redelegation && !parent.fields.redelegation)
    "redelegation broadens parent authority"
  if delegationHop then do
    refuse (!parent.fields.redelegation || parent.fields.delegationDepth == 0)
      "parent does not permit another delegation hop"
    refuse (parent.fields.delegationDepth ≤ child.fields.delegationDepth)
      "delegation hop must consume delegation depth"
  else .ok ()

/-- A bound within another, where none is the widest. -/
def WithinBound (child parent : Option Int) : Prop :=
  ∀ limit, parent = some limit → ∃ bound, child = some bound ∧ bound ≤ limit

/-- The child allows no more than the parent. -/
structure Attenuates (child parent : ConstraintSet) : Prop where
  resources : child.fields.resources ⊆ parent.fields.resources
  operations : child.fields.operations ⊆ parent.fields.operations
  arguments : child.fields.arguments ⊆ parent.fields.arguments
  audience : child.fields.audience ⊆ parent.fields.audience
  magnitude : WithinBound child.fields.magnitudeMax parent.fields.magnitudeMax
  start : parent.fields.validFromEpoch ≤ child.fields.validFromEpoch
  expiry : WithinBound child.fields.expiresBeforeEpoch parent.fields.expiresBeforeEpoch
  depth : child.fields.delegationDepth ≤ parent.fields.delegationDepth
  redelegation : child.fields.redelegation = true → parent.fields.redelegation = true

variable {field message : String} {child parent : List String}

theorem assertNames_eq_ok (passed : assertNames field child parent = .ok u) : child ⊆ parent :=
  not_not.mp (refuse_eq_ok passed)

theorem assertBound_eq_ok {child parent : Option Int}
    (passed : assertBound message child parent = .ok u) : WithinBound child parent := by
  intro limit stated
  subst stated
  cases child with
  | none => cases passed
  | some bound => exact ⟨bound, rfl, not_lt.mp (refuse_eq_ok passed)⟩

/-- What passes the check allows no more than the parent. -/
theorem attenuates_of_ok {child parent : ConstraintSet} {hop : Bool}
    (passed : child.assertAttenuates parent hop = .ok u) : Attenuates child parent := by
  simp only [assertAttenuates, bind_unit_iff, refuse_iff, and_eq_true, not_eq_true',
    not_and, not_eq_false, not_lt] at passed
  obtain ⟨resources, operations, arguments, audience, magnitude, start, expiry, depth,
    redelegation, -⟩ := passed
  exact {
    resources := assertNames_eq_ok resources
    operations := assertNames_eq_ok operations
    arguments := assertNames_eq_ok arguments
    audience := assertNames_eq_ok audience
    magnitude := assertBound_eq_ok magnitude
    start := start
    expiry := assertBound_eq_ok expiry
    depth := depth
    redelegation := redelegation }

/-! ## The order of attenuation -/

theorem assertNames_of_subset (subset : child ⊆ parent) : assertNames field child parent = .ok () :=
  refuse_of_not (not_not.mpr subset)

theorem assertBound_of_within {child parent : Option Int}
    (within : WithinBound child parent) : assertBound message child parent = .ok () := by
  cases parent with
  | none => rfl
  | some limit =>
    obtain ⟨bound, rfl, bounded⟩ := within limit rfl
    exact refuse_of_not (not_lt.mpr bounded)

/-- The check passes exactly for what allows no more. -/
theorem assertAttenuates_iff {child parent : ConstraintSet} :
    child.assertAttenuates parent false = .ok () ↔ Attenuates child parent := by
  refine ⟨attenuates_of_ok, fun attenuates => ?_⟩
  simp only [assertAttenuates, bind_unit_iff, refuse_iff, and_eq_true, not_eq_true',
    not_and, not_eq_false, not_lt]
  exact ⟨assertNames_of_subset attenuates.resources, assertNames_of_subset attenuates.operations,
    assertNames_of_subset attenuates.arguments, assertNames_of_subset attenuates.audience,
    assertBound_of_within attenuates.magnitude, attenuates.start,
    assertBound_of_within attenuates.expiry, attenuates.depth, attenuates.redelegation, rfl⟩

theorem WithinBound.refl (bound : Option Int) : WithinBound bound bound :=
  fun limit stated => ⟨limit, stated, le_refl limit⟩

theorem WithinBound.trans {first second third : Option Int} (inner : WithinBound first second)
    (outer : WithinBound second third) : WithinBound first third := by
  intro limit stated
  obtain ⟨middle, middleStated, outerBounded⟩ := outer limit stated
  obtain ⟨bound, boundStated, innerBounded⟩ := inner middle middleStated
  exact ⟨bound, boundStated, le_trans innerBounded outerBounded⟩

theorem WithinBound.antisymm {first second : Option Int} (there : WithinBound first second)
    (back : WithinBound second first) : first = second := by
  cases second with
  | none =>
    cases first with
    | none => rfl
    | some bound =>
      obtain ⟨_, impossible, -⟩ := back bound rfl
      cases impossible
  | some limit =>
    obtain ⟨bound, rfl, within⟩ := there limit rfl
    obtain ⟨_, same, beyond⟩ := back bound rfl
    cases same
    rw [le_antisymm within beyond]

theorem Attenuates.refl (set : ConstraintSet) : Attenuates set set where
  resources := Subset.refl _
  operations := Subset.refl _
  arguments := Subset.refl _
  audience := Subset.refl _
  magnitude := .refl _
  start := le_refl _
  expiry := .refl _
  depth := le_refl _
  redelegation := id

theorem Attenuates.trans {first second third : ConstraintSet} (inner : Attenuates first second)
    (outer : Attenuates second third) : Attenuates first third where
  resources := Subset.trans inner.resources outer.resources
  operations := Subset.trans inner.operations outer.operations
  arguments := Subset.trans inner.arguments outer.arguments
  audience := Subset.trans inner.audience outer.audience
  magnitude := inner.magnitude.trans outer.magnitude
  start := le_trans outer.start inner.start
  expiry := inner.expiry.trans outer.expiry
  depth := le_trans inner.depth outer.depth
  redelegation := outer.redelegation ∘ inner.redelegation

/-- Sets that allow no more than each other are the same: their name sets are canonical. -/
theorem Attenuates.antisymm {first second : ConstraintSet} (there : Attenuates first second)
    (back : Attenuates second first) : first = second := by
  have one := first.canonical
  have other := second.canonical
  have resources := one.resources.eq_of_subset other.resources there.resources back.resources
  have operations := one.operations.eq_of_subset other.operations there.operations back.operations
  have arguments := one.arguments.eq_of_subset other.arguments there.arguments back.arguments
  have audience := one.audience.eq_of_subset other.audience there.audience back.audience
  have magnitude := there.magnitude.antisymm back.magnitude
  have start := le_antisymm back.start there.start
  have expiry := there.expiry.antisymm back.expiry
  have depth := le_antisymm there.depth back.depth
  have redelegation := Bool.eq_iff_iff.mpr ⟨there.redelegation, back.redelegation⟩
  obtain ⟨⟨_, _, _, _, _, _, _, _, _⟩, _⟩ := first
  obtain ⟨⟨_, _, _, _, _, _, _, _, _⟩, _⟩ := second
  simp only at resources operations arguments audience magnitude start expiry depth redelegation
  subst resources operations arguments audience magnitude start expiry depth redelegation
  rfl

end ConstraintSet

end Koschei.Authorization
