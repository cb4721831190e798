import Koschei.Authorization.Requests

/-!
# Delegated authority grants

`native_sigil_authority_delegation_v1.py` issues a grant to an actor and lets it
be delegated. The digest of a grant is a hash of its fields, one to a line, the
operations on one line with commas. No field has a control character and no
operation has a comma, so the digest of a grant binds its fields; and a grant
that is delegated keeps the subject, the epoch and the identities of its parent
and can only lose operations.
-/

namespace Koschei.Authorization

open Lib

/-! ## Texts -/

/-- `ord(char) < 32 or ord(char) == 127`. -/
def isControl (c : Char) : Bool := decide (c.toNat < 32) || c.toNat == 127

/-- `_require_text`. -/
def requireText (value field : String) : Checked Unit := do
  refuse (value = "") ("authority grant " ++ field ++ " must be a non-empty string")
  refuse (value.toList.any isControl)
    ("authority grant " ++ field ++ " cannot contain control characters")

/-- `_require_nonnegative_integer`. -/
def requireNonnegativeInteger (value : Int) (field : String) : Checked Unit :=
  refuse (value < 0) ("authority grant " ++ field ++ " must be a non-negative integer")

/-- The loop of `_canonical_operations`. -/
def requireOperations : List String → Checked Unit
  | [] => .ok ()
  | value :: values => do
    requireText value "operation"
    refuse (',' ∈ value.toList) "authority operation cannot contain the v1 comma delimiter"
    requireOperations values

/-- `_canonical_operations`. -/
def canonicalOperations (operations : List String) : Checked (List String) := do
  refuse (operations = []) "authority grant requires non-empty operations"
  requireOperations operations
  .ok (sortedSet operations)

/-- `re.fullmatch(r"[a-f0-9]{64}", value)`. -/
def isParentDigest (value : String) : Bool := value.length == 64 && value.toList.all isHex

/-! ## Grants -/

/-- `AuthorityGrant`. -/
structure AuthorityGrant where
  grantId : String
  subject : String
  actorIdentityDigest : String
  epoch : Int
  operations : List String
  nativeMirFingerprint : String
  universePlanDigest : String
  parentGrantDigest : String
  depth : Int
  digest : String
  version : Int
  deriving DecidableEq

namespace AuthorityGrant

/-- The values that are joined to lines. -/
def rows (grant : AuthorityGrant) : List String :=
  [grant.grantId, grant.subject, grant.actorIdentityDigest, toString grant.epoch,
    ",".intercalate grant.operations, grant.nativeMirFingerprint, grant.universePlanDigest,
    grant.parentGrantDigest, toString grant.depth]

/-- The text that is hashed. -/
def sealedText (grant : AuthorityGrant) : String :=
  "koschei.native-sigil-authority-delegation/v1\x00" ++ lines grant.rows

section Operations

variable (primitives : Primitives)

/-- `_grant_digest`, of the fields of a grant. -/
def grantDigest (grant : AuthorityGrant) : Checked String := do
  requireText grant.grantId "grant_id"
  requireText grant.subject "subject"
  requireText grant.actorIdentityDigest "actor_identity_digest"
  requireText grant.nativeMirFingerprint "native_mir_fingerprint"
  requireText grant.universePlanDigest "universe_plan_digest"
  requireText grant.parentGrantDigest "parent_grant_digest"
  requireNonnegativeInteger grant.epoch "epoch"
  requireNonnegativeInteger grant.depth "depth"
  let canonical ← canonicalOperations grant.operations
  refuse (grant.operations ≠ canonical) "authority grant operations are not canonical"
  if grant.depth = 0 then
    refuse (grant.parentGrantDigest ≠ "ROOT") "root authority grant must use the ROOT parent marker"
  else
    refuse (¬ isParentDigest grant.parentGrantDigest)
      "child authority grant requires a parent digest"
  .ok (primitives.sha256 grant.sealedText)

/-- `AuthorityGrant.assert_sealed`. -/
def assertSealed (mir : NativeSigilMir) (grant : AuthorityGrant) : Checked Unit := do
  mir.assertSealed primitives
  refuse (grant.version ≠ 1) "unsupported authority grant version"
  let expected ← grant.grantDigest primitives
  refuse (grant.nativeMirFingerprint ≠ mir.fingerprint) "authority grant MIR identity mismatch"
  refuse (grant.universePlanDigest ≠ mir.universePlanDigest)
    "authority grant Universe identity mismatch"
  refuse (grant.subject ∉ mir.vorSubjects) "authority grant subject is not declared by a vor binding"
  refuse (grant.digest ≠ expected) "authority grant seal mismatch"

end Operations

end AuthorityGrant

section Operations

variable (primitives : Primitives)

/-- `issue_root_grant`. -/
def issueRootGrant (mir : NativeSigilMir) (grantId subject actorIdentityDigest : String)
    (epoch : Int) (operations : List String) : Checked AuthorityGrant := do
  mir.assertSealed primitives
  let canonical ← canonicalOperations operations
  let unsealed : AuthorityGrant := {
    grantId := grantId
    subject := subject
    actorIdentityDigest := actorIdentityDigest
    epoch := epoch
    operations := canonical
    nativeMirFingerprint := mir.fingerprint
    universePlanDigest := mir.universePlanDigest
    parentGrantDigest := "ROOT"
    depth := 0
    digest := ""
    version := 1 }
  let own ← unsealed.grantDigest primitives
  let result := { unsealed with digest := own }
  result.assertSealed primitives mir
  .ok result

/-- `delegate_grant`. -/
def delegateGrant (mir : NativeSigilMir) (parent : AuthorityGrant)
    (grantId actorIdentityDigest : String) (operations : List String) :
    Checked AuthorityGrant := do
  parent.assertSealed primitives mir
  let canonical ← canonicalOperations operations
  refuse (¬ canonical ⊆ parent.operations) "delegated authority cannot widen parent operations"
  let unsealed : AuthorityGrant := {
    grantId := grantId
    subject := parent.subject
    actorIdentityDigest := actorIdentityDigest
    epoch := parent.epoch
    operations := canonical
    nativeMirFingerprint := parent.nativeMirFingerprint
    universePlanDigest := parent.universePlanDigest
    parentGrantDigest := parent.digest
    depth := parent.depth + 1
    digest := ""
    version := 1 }
  let own ← unsealed.grantDigest primitives
  let result := { unsealed with digest := own }
  result.assertSealed primitives mir
  .ok result

/-- `require_request_authority`. -/
def requireRequestAuthority (mir : NativeSigilMir) (request : CanonicalEffectRequest)
    (grant : AuthorityGrant) : Checked Unit := do
  request.assertSealed primitives mir
  grant.assertSealed primitives mir
  refuse (request.subject ≠ grant.subject) "request subject is outside authority grant"
  refuse (request.identityDigest ≠ grant.actorIdentityDigest)
    "request actor identity is outside authority grant"
  refuse (request.epoch ≠ grant.epoch) "request epoch is stale for authority grant"
  refuse (request.operation ∉ grant.operations) "request operation is not delegated"

end Operations

/-! ## What the checks say -/

variable {u : Unit} {value field : String}

theorem requireText_eq_ok (passed : requireText value field = .ok u) :
    value ≠ "" ∧ ∀ c ∈ value.toList, isControl c = false := by
  unfold requireText at passed
  obtain ⟨_, nonempty, passed⟩ := bind_eq_ok passed
  refine ⟨refuse_eq_ok nonempty, fun c member => ?_⟩
  have plain := refuse_eq_ok passed
  rw [any_eq_true] at plain
  exact Bool.eq_false_of_not_eq_true fun control => plain ⟨c, member, control⟩

/-- A text without control characters is on one line. -/
theorem newline_not_mem (passed : requireText value field = .ok u) : '\n' ∉ value.toList := by
  intro member
  exact absurd ((requireText_eq_ok passed).2 _ member) (by decide)

theorem requireOperations_eq_ok {values : List String} (passed : requireOperations values = .ok u) :
    ∀ value ∈ values, '\n' ∉ value.toList ∧ ',' ∉ value.toList := by
  induction values with
  | nil => exact forall_mem_nil _
  | cons value values ih =>
    unfold requireOperations at passed
    obtain ⟨_, plain, passed⟩ := bind_eq_ok passed
    obtain ⟨_, comma, passed⟩ := bind_eq_ok passed
    exact forall_mem_cons.mpr ⟨⟨newline_not_mem plain, refuse_eq_ok comma⟩, ih passed⟩

theorem canonicalOperations_eq_ok {operations canonical : List String}
    (passed : canonicalOperations operations = .ok canonical) :
    operations ≠ [] ∧ (∀ value ∈ operations, '\n' ∉ value.toList ∧ ',' ∉ value.toList) ∧
      canonical = sortedSet operations := by
  unfold canonicalOperations at passed
  obtain ⟨_, nonempty, passed⟩ := bind_eq_ok passed
  obtain ⟨_, plain, passed⟩ := bind_eq_ok passed
  cases passed
  exact ⟨refuse_eq_ok nonempty, requireOperations_eq_ok plain, rfl⟩

namespace AuthorityGrant

/-- What the fields of a grant are known to be once its digest could be computed. -/
structure Canonical (grant : AuthorityGrant) : Prop where
  grantId : '\n' ∉ grant.grantId.toList
  subject : '\n' ∉ grant.subject.toList
  actor : '\n' ∉ grant.actorIdentityDigest.toList
  fingerprint : '\n' ∉ grant.nativeMirFingerprint.toList
  identity : '\n' ∉ grant.universePlanDigest.toList
  parent : '\n' ∉ grant.parentGrantDigest.toList
  epoch : 0 ≤ grant.epoch
  depth : 0 ≤ grant.depth
  some_operation : grant.operations ≠ []
  operations : ∀ value ∈ grant.operations, '\n' ∉ value.toList ∧ ',' ∉ value.toList

variable {primitives : Primitives} {mir : NativeSigilMir} {grant parent : AuthorityGrant}

theorem grantDigest_eq_ok {digest : String} (ran : grant.grantDigest primitives = .ok digest) :
    grant.Canonical ∧ digest = primitives.sha256 grant.sealedText := by
  simp only [grantDigest, requireNonnegativeInteger, bind_unit_iff, refuse_iff, not_lt] at ran
  obtain ⟨grantId, subject, actor, fingerprint, identity, named, clock, level, ran⟩ := ran
  obtain ⟨canonical, ordered, ran⟩ := bind_eq_ok ran
  obtain ⟨-, ran⟩ := bind_unit_iff.mp ran
  obtain ⟨nonempty, plain, -⟩ := canonicalOperations_eq_ok ordered
  have hashed : digest = primitives.sha256 grant.sealedText := by
    split at ran
    · obtain ⟨_, -, ran⟩ := bind_eq_ok ran
      cases ran
      rfl
    · obtain ⟨_, -, ran⟩ := bind_eq_ok ran
      cases ran
      rfl
  exact ⟨⟨newline_not_mem grantId, newline_not_mem subject, newline_not_mem actor,
    newline_not_mem fingerprint, newline_not_mem identity, newline_not_mem named,
    clock, level, nonempty, plain⟩, hashed⟩

theorem assertSealed_eq_ok (passed : grant.assertSealed primitives mir = .ok u) :
    grant.Canonical ∧ grant.digest = primitives.sha256 grant.sealedText := by
  simp only [assertSealed, bind_unit_iff, refuse_iff] at passed
  obtain ⟨-, -, passed⟩ := passed
  obtain ⟨expected, own, passed⟩ := bind_eq_ok passed
  simp only [bind_unit_iff, refuse_iff, ne_eq, not_not] at passed
  obtain ⟨canonical, rfl⟩ := grantDigest_eq_ok own
  exact ⟨canonical, passed.2.2.2⟩

/-! ## What a digest binds -/

variable {operations : List String}

theorem newline_not_mem_operations (plain : ∀ value ∈ operations, '\n' ∉ value.toList) :
    '\n' ∉ (",".intercalate operations).toList := by
  rw [toList_intercalate]
  intro member
  rcases Joining.mem_intercalate member with comma | ⟨row, isRow, inside⟩
  · exact absurd comma (by decide)
  · obtain ⟨value, isValue, rfl⟩ := mem_map.mp isRow
    exact plain value isValue inside

theorem newline_not_mem_toString {value : Int} (nonnegative : 0 ≤ value) :
    '\n' ∉ (toString value).toList :=
  count_eq_zero.mp (newlines_toString nonnegative)

theorem Canonical.rows (canonical : grant.Canonical) : ∀ row ∈ grant.rows, '\n' ∉ row.toList := by
  unfold AuthorityGrant.rows
  simp only [forall_mem_cons]
  exact ⟨canonical.grantId, canonical.subject, canonical.actor,
    newline_not_mem_toString canonical.epoch,
    newline_not_mem_operations fun value member => (canonical.operations value member).1,
    canonical.fingerprint, canonical.identity, canonical.parent,
    newline_not_mem_toString canonical.depth, forall_mem_nil _⟩

/-- The fields that the digest of a grant binds. -/
structure SameGrant (first second : AuthorityGrant) : Prop where
  grantId : first.grantId = second.grantId
  subject : first.subject = second.subject
  actorIdentityDigest : first.actorIdentityDigest = second.actorIdentityDigest
  epoch : first.epoch = second.epoch
  operations : first.operations = second.operations
  parentGrantDigest : first.parentGrantDigest = second.parentGrantDigest
  depth : first.depth = second.depth

theorem sameGrant_of_sealedText {first second : AuthorityGrant} (one : first.Canonical)
    (other : second.Canonical) (same : first.sealedText = second.sealedText) :
    SameGrant first second := by
  have rows : first.rows = second.rows :=
    rows_eq_of_plain rfl (cons_ne_nil _ _) (cons_ne_nil _ _) one.rows other.rows
      (append_cancel same)
  unfold AuthorityGrant.rows at rows
  simp only [cons.injEq] at rows
  obtain ⟨grantId, subject, actor, epoch, operations, -, -, parent, depth, -⟩ := rows
  exact ⟨grantId, subject, actor, toString_injective one.epoch other.epoch epoch,
    rows_eq_of_plain rfl one.some_operation other.some_operation
      (fun value member => (one.operations value member).2)
      (fun value member => (other.operations value member).2) operations,
    parent, toString_injective one.depth other.depth depth⟩

/-! ## Chains -/

/-- A grant that is delegated from another one in a number of steps. -/
inductive Delegated (primitives : Primitives) (ancestor : AuthorityGrant) :
    Nat → AuthorityGrant → Prop where
  | self : Delegated primitives ancestor 0 ancestor
  | delegate {steps : Nat} {parent child : AuthorityGrant} {mir : NativeSigilMir}
      {grantId actorIdentityDigest : String} {operations : List String}
      (before : Delegated primitives ancestor steps parent)
      (ran : delegateGrant primitives mir parent grantId actorIdentityDigest operations =
        .ok child) : Delegated primitives ancestor (steps + 1) child

/-- What a grant keeps of the one it is delegated from. -/
structure Narrows (ancestor : AuthorityGrant) (steps : Nat) (grant : AuthorityGrant) : Prop where
  operations : grant.operations ⊆ ancestor.operations
  subject : grant.subject = ancestor.subject
  epoch : grant.epoch = ancestor.epoch
  nativeMirFingerprint : grant.nativeMirFingerprint = ancestor.nativeMirFingerprint
  universePlanDigest : grant.universePlanDigest = ancestor.universePlanDigest
  depth : grant.depth = ancestor.depth + steps

theorem narrows_of_delegate {grantId actor : String}
    (ran : delegateGrant primitives mir parent grantId actor operations = .ok grant) :
    Narrows parent 1 grant := by
  unfold delegateGrant at ran
  obtain ⟨_, -, ran⟩ := bind_eq_ok ran
  obtain ⟨canonical, -, ran⟩ := bind_eq_ok ran
  obtain ⟨_, narrow, ran⟩ := bind_eq_ok ran
  obtain ⟨own, -, ran⟩ := bind_eq_ok ran
  obtain ⟨_, -, ran⟩ := bind_eq_ok ran
  cases ran
  exact ⟨not_not.mp (refuse_eq_ok narrow), rfl, rfl, rfl, rfl, rfl⟩

theorem Narrows.trans {first second third : AuthorityGrant} {steps further : Nat}
    (one : Narrows first steps second) (other : Narrows second further third) :
    Narrows first (steps + further) third where
  operations := fun _ member => one.operations (other.operations member)
  subject := other.subject.trans one.subject
  epoch := other.epoch.trans one.epoch
  nativeMirFingerprint := other.nativeMirFingerprint.trans one.nativeMirFingerprint
  universePlanDigest := other.universePlanDigest.trans one.universePlanDigest
  depth := by
    rw [other.depth, one.depth]
    omega

theorem Delegated.narrows {ancestor : AuthorityGrant} {steps : Nat}
    (delegated : Delegated primitives ancestor steps grant) : Narrows ancestor steps grant := by
  induction delegated with
  | self => exact ⟨Subset.refl _, rfl, rfl, rfl, rfl, (Int.add_zero _).symm⟩
  | delegate before ran ih => exact ih.trans (narrows_of_delegate ran)

theorem depth_of_issued {grantId subject actor : String} {epoch : Int}
    (issued : issueRootGrant primitives mir grantId subject actor epoch operations = .ok grant) :
    grant.depth = 0 := by
  unfold issueRootGrant at issued
  obtain ⟨_, -, issued⟩ := bind_eq_ok issued
  obtain ⟨canonical, -, issued⟩ := bind_eq_ok issued
  obtain ⟨own, -, issued⟩ := bind_eq_ok issued
  obtain ⟨_, -, issued⟩ := bind_eq_ok issued
  cases issued
  rfl

theorem requireRequestAuthority_eq_ok {request : CanonicalEffectRequest}
    (accepted : requireRequestAuthority primitives mir request grant = .ok u) :
    request.operation ∈ grant.operations ∧ request.subject = grant.subject ∧
      request.epoch = grant.epoch := by
  simp only [requireRequestAuthority, bind_unit_iff, refuse_iff, ne_eq, not_not] at accepted
  obtain ⟨-, -, subject, -, epoch, permitted⟩ := accepted
  exact ⟨permitted, subject, epoch⟩

end AuthorityGrant

open AuthorityGrant

/-- Grants bind their fields and do not escalate. -/
structure GrantSafety (primitives : Primitives) : Prop where
  binds : ∀ (mir : NativeSigilMir) (first second : AuthorityGrant),
    first.assertSealed primitives mir = .ok () → second.assertSealed primitives mir = .ok () →
      CollisionFree primitives.sha256 [first.sealedText, second.sealedText] →
        first.digest = second.digest → SameGrant first second
  narrows : ∀ (mir : NativeSigilMir) (grantId subject actor : String) (epoch : Int)
    (operations : List String) (root ancestor grant : AuthorityGrant) (steps further : Nat),
      issueRootGrant primitives mir grantId subject actor epoch operations = .ok root →
        Delegated primitives root steps ancestor → Delegated primitives ancestor further grant →
          grant.operations ⊆ ancestor.operations ∧ grant.subject = root.subject ∧
            grant.epoch = root.epoch ∧ grant.nativeMirFingerprint = root.nativeMirFingerprint ∧
              grant.universePlanDigest = root.universePlanDigest ∧ grant.depth = steps + further
  covers : ∀ (mir mir' : NativeSigilMir) (grantId subject actor : String) (epoch : Int)
    (operations : List String) (root grant : AuthorityGrant) (steps : Nat)
    (request : CanonicalEffectRequest),
      issueRootGrant primitives mir grantId subject actor epoch operations = .ok root →
        Delegated primitives root steps grant →
          requireRequestAuthority primitives mir' request grant = .ok () →
            request.operation ∈ root.operations ∧ request.subject = root.subject ∧
              request.epoch = root.epoch

theorem grants_bind_and_narrow (primitives : Primitives) : GrantSafety primitives where
  binds mir first second firstSealed secondSealed free digests := by
    obtain ⟨one, own⟩ := assertSealed_eq_ok firstSealed
    obtain ⟨other, own'⟩ := assertSealed_eq_ok secondSealed
    rw [own, own'] at digests
    exact sameGrant_of_sealedText one other (free.pair digests)
  narrows mir grantId subject actor epoch operations root ancestor grant steps further issued there
      on := by
    have first := there.narrows
    have second := on.narrows
    have whole := first.trans second
    refine ⟨second.operations, whole.subject, whole.epoch, whole.nativeMirFingerprint,
      whole.universePlanDigest, ?_⟩
    rw [whole.depth, depth_of_issued issued]
    omega
  covers mir mir' grantId subject actor epoch operations root grant steps request issued there
      accepted := by
    obtain ⟨operation, sameSubject, sameEpoch⟩ := requireRequestAuthority_eq_ok accepted
    have whole := there.narrows
    exact ⟨whole.operations operation, sameSubject.trans whole.subject, sameEpoch.trans whole.epoch⟩

end Koschei.Authorization
