import Koschei.Authorization.Permits
import Koschei.Lib.Runs

/-!
# Consumption of execution permits

`ExecutionPermitLedgerV1.consume` of `execution_permit_v1.py` adds the digest of
a permit to the consumed digests and then makes a receipt and authenticates it.
The permit is authenticated in the lower case of its digests, the receipt is
compared with the digests as they are spelled. A permit whose decision or
evidence digest has capitals is therefore consumed by a call that raises.

No digest is ever consumed twice, and a call that returns has added the digest
of its permit and nothing else. Calls that raise leave the ledger unchanged
exactly as long as no permit with capitals in these digests reaches it.
-/

namespace Koschei.Authorization

open Lib

/-! ## Receipts -/

/-- `_consumption_payload`. -/
def consumptionPayload (permit decision evidence operation request : String) (epoch : Int) :
    String :=
  "koschei.execution-permit-consumption/v1\x00" ++ lines ["permit=" ++ permit,
    "decision=" ++ decision, "evidence=" ++ evidence, "operation=" ++ operation,
    "request=" ++ request, "epoch=" ++ toString epoch, "consumed=1"]

/-- `ExecutionConsumptionReceiptV1`. -/
structure ExecutionConsumptionReceipt where
  permitDigest : String
  authorizationDecisionDigest : String
  evidenceDigest : String
  operation : String
  requestDigest : String
  consumedEpoch : Int
  receiptDigest : String
  consumed : Bool
  deriving DecidableEq

/-- `ExecutionConsumptionReceiptV1.assert_authenticated`. -/
def ExecutionConsumptionReceipt.assertAuthenticated (primitives : Primitives)
    (runtimeKey : List UInt8) (permit : ExecutionPermit)
    (receipt : ExecutionConsumptionReceipt) : Checked Unit := do
  let key ← keyOf runtimeKey "runtime_key"
  refuse (receipt.consumed = false) "execution consumption receipt must remain consumed"
  let permitDigest ← hexDigest receipt.permitDigest "permit_digest"
  let decisionDigest ← hexDigest receipt.authorizationDecisionDigest "authorization_decision_digest"
  let evidenceDigest ← hexDigest receipt.evidenceDigest "evidence_digest"
  let operation ← text receipt.operation "operation"
  let request ← hexDigest receipt.requestDigest "request_digest"
  let epoch ← epochOf receipt.consumedEpoch "consumed_epoch"
  refuse (permitDigest ≠ permit.permitDigest) "execution consumption receipt permit mismatch"
  refuse (decisionDigest ≠ permit.authorizationDecisionDigest)
    "execution consumption receipt decision mismatch"
  refuse (evidenceDigest ≠ permit.evidenceDigest) "execution consumption receipt evidence mismatch"
  refuse (operation ≠ permit.operation) "execution consumption receipt operation mismatch"
  refuse (request ≠ permit.requestDigest) "execution consumption receipt request mismatch"
  refuse (epoch ≠ permit.validEpoch) "execution consumption receipt epoch mismatch"
  compareDigest receipt.receiptDigest
    (primitives.hmac key (consumptionPayload permitDigest decisionDigest evidenceDigest operation
      request epoch))
    "execution consumption receipt authentication failed"

/-! ## The ledger -/

/-- The arguments of `consume`. -/
structure Consume where
  permit : ExecutionPermit
  runtimeKey : List UInt8
  decisionKey : List UInt8
  grant : ExternalAdapterGrant
  evidence : ExternalAdapterEvidence
  decision : AuthorizationDecision
  currentEpoch : Int
  requestDigest : String
  operation : String

namespace Consume

variable (primitives : Primitives)

/-- What `consume` checks before it looks into the ledger. -/
def admission (call : Consume) : Checked Unit := do
  call.permit.assertAuthenticated primitives call.runtimeKey call.decisionKey call.grant
    call.evidence call.decision
  let live ← call.permit.isLiveFor call.currentEpoch call.requestDigest call.operation
  refuse (live = false) "execution permit is not live for this request"

def receipt (call : Consume) : ExecutionConsumptionReceipt where
  permitDigest := call.permit.permitDigest
  authorizationDecisionDigest := call.permit.authorizationDecisionDigest
  evidenceDigest := call.permit.evidenceDigest
  operation := call.permit.operation
  requestDigest := call.permit.requestDigest
  consumedEpoch := call.permit.validEpoch
  receiptDigest := primitives.hmac call.runtimeKey (consumptionPayload call.permit.permitDigest
    call.permit.authorizationDecisionDigest call.permit.evidenceDigest call.permit.operation
    call.permit.requestDigest call.permit.validEpoch)
  consumed := true

end Consume

/-- `ExecutionPermitLedgerV1.consume` on the consumed digests. The digest is added before the
receipt is authenticated. -/
def consume (primitives : Primitives) (consumed : List String) (call : Consume) :
    Checked ExecutionConsumptionReceipt × List String :=
  match call.admission primitives with
  | .error message => (.error message, consumed)
  | .ok () =>
    if call.permit.permitDigest ∈ consumed then
      (.error "execution permit replay detected", consumed)
    else
      let authenticated := do
        let _ ← keyOf call.runtimeKey "runtime_key"
        (call.receipt primitives).assertAuthenticated primitives call.runtimeKey call.permit
        .ok (call.receipt primitives)
      (authenticated, call.permit.permitDigest :: consumed)

/-- The call meets the ledger. -/
def Consume.Reaches (primitives : Primitives) (consumed : List String) (call : Consume) : Prop :=
  call.admission primitives = .ok () ∧ call.permit.permitDigest ∉ consumed

/-- The digests a receipt repeats are spelled in lower case, and the permit digest is not zero. -/
structure ExecutionPermit.SpelledLow (permit : ExecutionPermit) : Prop where
  decision : lowered permit.authorizationDecisionDigest = permit.authorizationDecisionDigest
  evidence : lowered permit.evidenceDigest = permit.evidenceDigest
  nonzero : permit.permitDigest ≠ zeroDigest

/-- The HMAC of a text in hexadecimal. -/
structure HexMacs (primitives : Primitives) : Prop where
  length : ∀ key text, (primitives.hmac key text).length = 64
  hexadecimal : ∀ key text, ∀ c ∈ (primitives.hmac key text).toList, isHex c = true

/-! ## One call -/

section Calls

variable {primitives : Primitives} {call : Consume} {consumed : List String}

theorem ExecutionPermit.isLiveFor_eq_ok {permit : ExecutionPermit} {currentEpoch : Int}
    {requestDigest operation : String}
    (live : permit.isLiveFor currentEpoch requestDigest operation = .ok true) :
    0 ≤ permit.validEpoch ∧ IsDigest permit.requestDigest ∧
      text permit.operation "operation" = .ok permit.operation := by
  unfold isLiveFor at live
  obtain ⟨now, clock, checks⟩ := bind_eq_ok live
  obtain ⟨rfl, nonnegative⟩ := epochOf_eq_ok clock
  split at checks
  · cases checks
  rename_i epoch
  obtain ⟨request, requested, checks⟩ := bind_eq_ok checks
  split at checks
  · cases checks
  rename_i sameRequest
  obtain ⟨wanted, operated, checks⟩ := bind_eq_ok checks
  have sameOperation : wanted = permit.operation := of_decide_eq_true (ok.inj checks)
  obtain ⟨stripping, nonempty⟩ := text_eq_ok operated
  obtain ⟨-, sound⟩ := hexDigest_eq_ok requested
  refine ⟨not_not.mp epoch ▸ nonnegative, not_not.mp sameRequest ▸ sound, ?_⟩
  rw [← sameOperation, stripping]
  unfold text
  rw [stripped_stripped, if_neg (stripping ▸ nonempty)]

theorem Consume.admission_eq_ok (admitted : call.admission primitives = .ok ()) :
    ExecutionPermit.Authentic primitives call.runtimeKey call.decisionKey call.grant call.evidence
        call.decision call.permit ∧
      32 ≤ call.runtimeKey.length ∧ 0 ≤ call.permit.validEpoch ∧
      IsDigest call.permit.requestDigest ∧
      text call.permit.operation "operation" = .ok call.permit.operation := by
  unfold admission at admitted
  obtain ⟨_, authenticated, admitted⟩ := bind_eq_ok admitted
  obtain ⟨live, liveFor, admitted⟩ := bind_eq_ok admitted
  have isLive : live = true := by simpa using refuse_eq_ok admitted
  have long : 32 ≤ call.runtimeKey.length := by
    unfold ExecutionPermit.assertAuthenticated at authenticated
    obtain ⟨_, keyed, -⟩ := bind_eq_ok authenticated
    exact (keyOf_eq_ok keyed).2
  exact ⟨ExecutionPermit.assertAuthenticated_eq_ok authenticated, long,
    ExecutionPermit.isLiveFor_eq_ok (isLive ▸ liveFor)⟩

/-- The receipt of an admitted call is authentic exactly for the permits that are spelled in lower
case. -/
theorem Consume.receipt_authentic_iff (macs : HexMacs primitives)
    (admitted : call.admission primitives = .ok ()) :
    (call.receipt primitives).assertAuthenticated primitives call.runtimeKey call.permit = .ok () ↔
      call.permit.SpelledLow := by
  obtain ⟨authentic, long, clock, request, operation⟩ := call.admission_eq_ok admitted
  constructor
  · intro passed
    simp only [ExecutionConsumptionReceipt.assertAuthenticated, Consume.receipt, bind_keyOf_iff,
      bind_unit_iff, refuse_iff, bind_hexDigest_iff, bind_text_iff, bind_epochOf_iff, ne_eq,
      not_not] at passed
    obtain ⟨-, -, sound, -, -, -, -, -, low, sameDecision, sameEvidence, -⟩ := passed
    exact ⟨sameDecision, sameEvidence, low ▸ sound.nonzero⟩
  · intro low
    have permit : IsDigest call.permit.permitDigest := by
      refine ⟨?_, ?_, low.nonzero⟩
      · rw [authentic.digest]
        exact macs.length _ _
      · rw [authentic.digest]
        exact macs.hexadecimal _ _
    have decision : IsDigest call.permit.authorizationDecisionDigest :=
      low.decision ▸ authentic.decisionSound
    have evidence : IsDigest call.permit.evidenceDigest := low.evidence ▸ authentic.evidenceSound
    obtain ⟨stays, named⟩ := text_eq_ok operation
    simp only [ExecutionConsumptionReceipt.assertAuthenticated, Consume.receipt, bind_keyOf_iff,
      bind_unit_iff, refuse_iff, bind_hexDigest_iff, bind_text_iff, bind_epochOf_iff, ne_eq,
      not_not, lowered_of_isDigest permit, lowered_of_isDigest decision,
      lowered_of_isDigest evidence, lowered_of_isDigest request, stays.symm]
    exact ⟨long, refuse_of_not (by decide), permit, decision, evidence, named, request, clock,
      trivial, trivial, trivial, trivial, trivial, trivial,
      compareDigest_of_hexadecimal (macs.hexadecimal _ _) rfl⟩

/-- Everything a call can do: it is refused, it consumes the permit and returns its receipt, or it
consumes the permit and raises. -/
theorem consume_cases (macs : HexMacs primitives) (consumed : List String) (call : Consume) :
    (¬ call.Reaches primitives consumed ∧
        ∃ message, consume primitives consumed call = (.error message, consumed)) ∨
      (call.Reaches primitives consumed ∧ call.permit.SpelledLow ∧
        (call.receipt primitives).assertAuthenticated primitives call.runtimeKey call.permit =
          .ok () ∧
        consume primitives consumed call =
          (.ok (call.receipt primitives), call.permit.permitDigest :: consumed)) ∨
      (call.Reaches primitives consumed ∧ ¬ call.permit.SpelledLow ∧
        ∃ message, consume primitives consumed call =
          (.error message, call.permit.permitDigest :: consumed)) := by
  cases admitted : call.admission primitives with
  | error message =>
    refine .inl ⟨fun reaches => ?_, message, ?_⟩
    · have passed := reaches.1
      rw [admitted] at passed
      cases passed
    · unfold consume
      rw [admitted]
  | ok _ =>
    have long := (call.admission_eq_ok admitted).2.1
    by_cases replayed : call.permit.permitDigest ∈ consumed
    · refine .inl ⟨fun reaches => reaches.2 replayed, "execution permit replay detected", ?_⟩
      unfold consume
      rw [admitted]
      dsimp only
      rw [if_pos replayed]
    · have reaches : call.Reaches primitives consumed := ⟨admitted, replayed⟩
      have ran : consume primitives consumed call = ((do
          (call.receipt primitives).assertAuthenticated primitives call.runtimeKey call.permit
          .ok (call.receipt primitives)), call.permit.permitDigest :: consumed) := by
        unfold consume
        rw [admitted]
        dsimp only
        rw [if_neg replayed, bind_of_ok (keyOf_of_long long)]
      cases authenticated : (call.receipt primitives).assertAuthenticated primitives
          call.runtimeKey call.permit with
      | ok _ =>
        have low := (call.receipt_authentic_iff macs admitted).mp authenticated
        refine .inr (.inl ⟨reaches, low, rfl, ?_⟩)
        rw [ran, authenticated]
        rfl
      | error message =>
        refine .inr (.inr ⟨reaches, fun low => ?_, message, ?_⟩)
        · rw [(call.receipt_authentic_iff macs admitted).mpr low] at authenticated
          cases authenticated
        · rw [ran, authenticated]
          rfl

end Calls

/-! ## Runs -/

/-- One call of a run on the ledger. -/
abbrev Consumption := Moment (List String) Consume (Checked ExecutionConsumptionReceipt)

def Consumption.Returned (moment : Consumption) : Prop := ∃ receipt, moment.answer = .ok receipt

/-- Permits are consumed once, and calls change nothing, or add the digest of their permit and
return an authentic receipt. -/
structure ConsumedOnce (primitives : Primitives) (run : List Consumption) : Prop where
  once : run.Pairwise fun earlier later => Consumption.Returned earlier →
    Consumption.Returned later → earlier.call.permit.permitDigest ≠ later.call.permit.permitDigest
  raised : ∀ moment ∈ run, ∀ message, moment.answer = .error message → moment.after = moment.before
  returned : ∀ moment ∈ run, ∀ receipt, moment.answer = .ok receipt →
    moment.call.permit.permitDigest ∉ moment.before ∧
      moment.after = moment.call.permit.permitDigest :: moment.before ∧
      receipt.assertAuthenticated primitives moment.call.runtimeKey moment.call.permit = .ok ()

section Runs

variable {primitives : Primitives} {consumed : List String} {calls : List Consume}
  {moment : Consumption}

theorem consumption_subset (macs : HexMacs primitives)
    (member : moment ∈ trace (consume primitives) consumed calls) :
    moment.before ⊆ moment.after := by
  rcases consume_cases macs moment.before moment.call with
    ⟨-, message, ran⟩ | ⟨-, -, -, ran⟩ | ⟨-, -, message, ran⟩
  · rw [(outcome_of_mem_trace member ran).2]
    exact Subset.refl _
  · rw [(outcome_of_mem_trace member ran).2]
    exact subset_cons_self _ _
  · rw [(outcome_of_mem_trace member ran).2]
    exact subset_cons_self _ _

/-- A call that returned added the digest of its permit, which was not consumed before. -/
theorem returned_cases (macs : HexMacs primitives)
    (member : moment ∈ trace (consume primitives) consumed calls)
    {receipt : ExecutionConsumptionReceipt} (answered : moment.answer = .ok receipt) :
    moment.call.permit.permitDigest ∉ moment.before ∧
      moment.after = moment.call.permit.permitDigest :: moment.before ∧
      receipt.assertAuthenticated primitives moment.call.runtimeKey moment.call.permit = .ok () := by
  rcases consume_cases macs moment.before moment.call with
    ⟨-, message, ran⟩ | ⟨reaches, -, authentic, ran⟩ | ⟨-, -, message, ran⟩
  · rw [(outcome_of_mem_trace member ran).1] at answered
    cases answered
  · obtain ⟨answer, after⟩ := outcome_of_mem_trace member ran
    rw [answer] at answered
    exact ⟨reaches.2, after, ok.inj answered ▸ authentic⟩
  · rw [(outcome_of_mem_trace member ran).1] at answered
    cases answered

theorem returned_once (macs : HexMacs primitives) :
    (trace (consume primitives) consumed calls).Pairwise fun earlier later =>
      Consumption.Returned earlier → Consumption.Returned later →
        earlier.call.permit.permitDigest ≠ later.call.permit.permitDigest := by
  have kept := trace_pairwise (R := fun before after : List String => before ⊆ after)
    (fun _ => Subset.refl _) (fun _ _ _ => Subset.trans)
    (fun moment (member : moment ∈ trace (consume primitives) consumed calls) =>
      consumption_subset macs member)
  refine kept.imp_of_mem fun {earlier later} first second subset => ?_
  rintro ⟨_, answered⟩ ⟨_, answered'⟩ same
  have added := (returned_cases macs first answered).2.1
  have fresh := (returned_cases macs second answered').1
  apply fresh
  rw [← same]
  apply subset
  rw [added]
  exact mem_cons_self

/-- A run consumes permits once and atomically exactly when every permit that reaches the ledger
is spelled in lower case. -/
theorem consumed_once_iff (primitives : Primitives) (macs : HexMacs primitives)
    (consumed : List String) (calls : List Consume) :
    ConsumedOnce primitives (trace (consume primitives) consumed calls) ↔
      ∀ moment ∈ trace (consume primitives) consumed calls,
        moment.call.Reaches primitives moment.before → moment.call.permit.SpelledLow := by
  constructor
  · intro atomic moment member reaches
    rcases consume_cases macs moment.before moment.call with
      ⟨refused, -⟩ | ⟨-, low, -⟩ | ⟨-, -, message, ran⟩
    · exact absurd reaches refused
    · exact low
    · -- the digest of the permit is in the ledger, although the call raised
      obtain ⟨answer, added⟩ := outcome_of_mem_trace member ran
      rw [atomic.raised moment member message answer] at added
      exact absurd (congrArg List.length added) (by simp)
  · intro low
    refine ⟨returned_once macs, fun moment member message raised => ?_,
      fun moment member receipt answered => returned_cases macs member answered⟩
    rcases consume_cases macs moment.before moment.call with
      ⟨-, _, ran⟩ | ⟨-, -, -, ran⟩ | ⟨reaches, high, -⟩
    · exact (outcome_of_mem_trace member ran).2
    · rw [(outcome_of_mem_trace member ran).1] at raised
      cases raised
    · exact absurd (low moment member reaches) high

end Runs

/-! ## A permit in capitals -/

/-- The call that consumes the recorded permit, in any spelling of its decision digest. -/
def payCall (decisionDigest : String) : Consume where
  permit := payPermit decisionDigest "read"
  runtimeKey := recordedKey
  decisionKey := recordedKey
  grant := payGrant
  evidence := payEvidence
  decision := payDecision
  currentEpoch := 1
  requestDigest := repeated 'a'
  operation := "read"

theorem hexMacs_hexPrimitives : HexMacs hexPrimitives :=
  ⟨fun _ _ => isDigest_b.length, fun _ _ => isDigest_b.hexadecimal⟩

theorem payCall_admitted {decisionDigest : String}
    (named : hexDigest decisionDigest "authorization_decision_digest" = .ok (repeated 'b')) :
    (payCall decisionDigest).admission hexPrimitives = .ok () := by
  have read : text "read" "operation" = .ok "read" := text_ofList _ (by decide) rfl rfl
  have live : (payPermit decisionDigest "read").isLiveFor 1 (repeated 'a') "read" = .ok true := by
    have epoch : ¬ 1 ≠ (payPermit decisionDigest "read").validEpoch := not_not.mpr rfl
    have request : ¬ repeated 'a' ≠ (payPermit decisionDigest "read").requestDigest :=
      not_not.mpr rfl
    unfold ExecutionPermit.isLiveFor
    rw [bind_of_ok (epochOf_of_nonneg zero_le_one), if_neg epoch,
      bind_of_ok (hexDigest_of_sound isDigest_a), if_neg request, bind_of_ok read]
    rfl
  have isLive : ¬ true = false := nofun
  unfold Consume.admission
  refine (bind_of_ok (payPermit_authentic named read)).trans ((bind_of_ok live).trans ?_)
  exact refuse_of_not isLive

/-- A permit whose decision digest is spelled in capitals is consumed by a call that raises. -/
theorem consume_of_capitals : ∃ message, consume hexPrimitives [] (payCall (repeated 'B')) =
      (.error message, [repeated 'b']) := by
  have low : lowered (repeated 'B') = repeated 'b' := lowered_repeated 'B'
  have named : hexDigest (repeated 'B') "authorization_decision_digest" = .ok (repeated 'b') :=
    (hexDigest_of_isDigest (low ▸ isDigest_b)).trans (congrArg Except.ok low)
  rcases consume_cases hexMacs_hexPrimitives [] (payCall (repeated 'B')) with
    ⟨refused, -⟩ | ⟨-, spelled, -⟩ | ⟨-, -, raises⟩
  · exact absurd ⟨payCall_admitted named, not_mem_nil⟩ refused
  · have same : lowered (repeated 'B') = repeated 'B' := spelled.decision
    rw [low] at same
    have letters : 'b' ≠ 'B' := by decide
    exact absurd (ofList_inj.mp same) (replicate_ne (Nat.succ_ne_zero 63) letters)
  · exact raises

/-- The same permit in lower case, presented twice. -/
theorem consumed_once_iff_recorded : ConsumedOnce hexPrimitives (trace (consume hexPrimitives) []
      [payCall (repeated 'b'), payCall (repeated 'b')]) := by
  have spelled : (payCall (repeated 'b')).permit.SpelledLow :=
    ⟨lowered_of_isDigest isDigest_b, lowered_of_isDigest isDigest_a, isDigest_b.nonzero⟩
  refine (consumed_once_iff hexPrimitives hexMacs_hexPrimitives [] _).mpr fun moment member _ => ?_
  have called := call_of_mem_trace member
  simp only [mem_cons, not_mem_nil, or_false, or_self] at called
  rw [called]
  exact spelled

end Koschei.Authorization
