import Koschei.Recovery.Transaction

/-!
# The recovery journal

`library_recovery_journal_v0.py` journals a transaction: an entry when it is
prepared, one for each step, and one when it is committed or aborted. Every entry
has the digest of the entry before it. To resume after a crash, the journal is
read from its beginning and the entries are checked one after the other.
-/

namespace Koschei.Recovery

open Lib

/-! ## Journals -/

/-- `JournalEventKind`. -/
inductive JournalEventKind where
  | prepared
  | stepApplied
  | committed
  | aborted
  deriving DecidableEq

def JournalEventKind.value : JournalEventKind → String
  | .prepared => "prepared"
  | .stepApplied => "step_applied"
  | .committed => "committed"
  | .aborted => "aborted"

/-- The state a transaction is in after an event, when the event ends it. -/
def JournalEventKind.terminal? : JournalEventKind → Option RecoveryTransactionState
  | .committed => some .committed
  | .aborted => some .aborted
  | _ => none

/-- `RecoveryJournalEntryV0`. -/
structure RecoveryJournalEntryV0 where
  sequence : Int
  kind : JournalEventKind
  stepId : Option String
  evidenceDigest : Bytes
  previousEntryDigest : Bytes
  entryDigest : Bytes
  deriving DecidableEq

/-- `RecoveryJournalV0`. -/
structure RecoveryJournalV0 where
  graphDigest : Bytes
  recoveryPlanDigest : Bytes
  preparationDigest : Bytes
  entries : List RecoveryJournalEntryV0
  journalDigest : Bytes
  terminal : Bool
  authority : Bool
  deriving DecidableEq

/-- `RecoveryResumeStateV0`. -/
structure RecoveryResumeStateV0 where
  appliedStepIds : List (Option String)
  nextStepId : Option String
  terminalState : Option RecoveryTransactionState
  resumeDigest : Bytes
  resumable : Bool
  authority : Bool
  deriving DecidableEq

def journalContext : Bytes := encode "koschei.library-recovery-journal/v0\x00"

/-- The steps that were applied, in the order of the entries. -/
def appliedOf (entries : List RecoveryJournalEntryV0) : List (Option String) :=
  (entries.filter fun e => decide (e.kind = .stepApplied)).map RecoveryJournalEntryV0.stepId

def RecoveryJournalV0.Of (journal : RecoveryJournalV0) (transaction : RecoveryTransactionV0) : Prop :=
  transaction.graphDigest = journal.graphDigest ∧
    transaction.recoveryPlanDigest = journal.recoveryPlanDigest ∧
    transaction.preparationDigest = journal.preparationDigest

instance (journal : RecoveryJournalV0) (transaction : RecoveryTransactionV0) :
    Decidable (journal.Of transaction) := by
  unfold RecoveryJournalV0.Of
  infer_instance

/-- `entries[-1].entry_digest`. -/
def lastDigest (entries : List RecoveryJournalEntryV0) : Guarded Bytes :=
  match entries.getLast? with
  | none => .error .index
  | some e => .ok e.entryDigest

/-- The kind of the entry a transaction ends with. -/
def terminalKind (state : RecoveryTransactionState) : JournalEventKind :=
  if state = .committed then .committed else .aborted

section Hashes

variable (sha3 : Bytes → Bytes)

/-- `_entry_digest`. -/
def entryDigestOf (sequence : Int) (kind : JournalEventKind) (stepId : Option String)
    (evidence previous : Bytes) : Guarded Bytes := do
  raiseIf (sequence < 1) (Fault.journal "journal sequence must be positive")
  let evidence ← digest32 .journal evidence "evidence_digest"
  let previous ← digest32 .journal previous "previous_entry_digest"
  let sid := match stepId with
    | none => []
    | some step => encode step
  let number ← toBytes 8 sequence.toNat
  let length ← toBytes 2 sid.length
  .ok (sha3 (journalContext ++ encode "entry\x00" ++ number ++ encode kind.value ++ [0] ++ length ++
    sid ++ evidence ++ previous))

/-- The digest of an entry with the values of the entry. -/
def RecoveryJournalEntryV0.ownDigest (e : RecoveryJournalEntryV0) : Guarded Bytes :=
  entryDigestOf sha3 e.sequence e.kind e.stepId e.evidenceDigest e.previousEntryDigest

/-! ## Writing -/

/-- `open_recovery_journal_v0`. -/
def openRecoveryJournalV0 (transaction : RecoveryTransactionV0) (evidence : Bytes) :
    Guarded RecoveryJournalV0 := do
  raiseIf (transaction.authority ∨ transaction.state ≠ .prepared)
    (Fault.journal "prepared authority-free recovery transaction required")
  let evidence ← digest32 .journal evidence "evidence_digest"
  raiseIf (evidence = zeros) (Fault.journal "journal open evidence cannot be empty")
  let digest ← entryDigestOf sha3 1 .prepared none evidence zeros
  let entry : RecoveryJournalEntryV0 := ⟨1, .prepared, none, evidence, zeros, digest⟩
  .ok {
    graphDigest := transaction.graphDigest
    recoveryPlanDigest := transaction.recoveryPlanDigest
    preparationDigest := transaction.preparationDigest
    entries := [entry]
    journalDigest := sha3 (journalContext ++ encode "journal\x00" ++ transaction.graphDigest ++
      transaction.recoveryPlanDigest ++ transaction.preparationDigest ++ digest)
    terminal := false
    authority := false }

/-- `append_recovery_step_v0`. -/
def appendRecoveryStepV0 (journal : RecoveryJournalV0) (transaction : RecoveryTransactionV0)
    (stepId : String) (evidence : Bytes) : Guarded RecoveryJournalV0 := do
  raiseIf (journal.authority ∨ journal.terminal)
    (Fault.journal "open authority-free journal required")
  raiseIf (¬ journal.Of transaction) (Fault.journal "journal/transaction drift detected")
  let applied := appliedOf journal.entries
  let expected := transaction.orderedStepIds
  raiseIf (expected.length ≤ applied.length ∨ expected[applied.length]? ≠ some stepId)
    (Fault.journal "recovery steps must journal in canonical order")
  let evidence ← digest32 .journal evidence "evidence_digest"
  raiseIf (evidence = zeros) (Fault.journal "step evidence cannot be empty")
  let previous ← lastDigest journal.entries
  let sequence : Int := journal.entries.length + 1
  let digest ← entryDigestOf sha3 sequence .stepApplied (some stepId) evidence previous
  let entry : RecoveryJournalEntryV0 :=
    ⟨sequence, .stepApplied, some stepId, evidence, previous, digest⟩
  .ok { journal with
    entries := journal.entries ++ [entry]
    journalDigest := sha3 (journal.journalDigest ++ digest)
    terminal := false
    authority := false }

/-- `seal_recovery_journal_v0`. -/
def sealRecoveryJournalV0 (journal : RecoveryJournalV0) (receipt : RecoveryTransactionReceiptV0) :
    Guarded RecoveryJournalV0 := do
  raiseIf (journal.authority ∨ journal.terminal) (Fault.journal "open journal required")
  raiseIf (¬ (receipt.graphDigest = journal.graphDigest ∧
      receipt.recoveryPlanDigest = journal.recoveryPlanDigest ∧
      receipt.preparationDigest = journal.preparationDigest))
    (Fault.journal "receipt/journal drift detected")
  raiseIf (appliedOf journal.entries ≠ receipt.appliedStepIds.map some)
    (Fault.journal "journaled steps differ from terminal receipt")
  let kind := terminalKind receipt.finalState
  let previous ← lastDigest journal.entries
  let sequence : Int := journal.entries.length + 1
  let digest ← entryDigestOf sha3 sequence kind none receipt.terminalEvidenceDigest previous
  let entry : RecoveryJournalEntryV0 :=
    ⟨sequence, kind, none, receipt.terminalEvidenceDigest, previous, digest⟩
  .ok { journal with
    entries := journal.entries ++ [entry]
    journalDigest := sha3 (journal.journalDigest ++ receipt.receiptDigest ++ digest)
    terminal := true
    authority := false }

/-! ## Reading -/

/-- What is known of a journal behind some of its entries. -/
structure Walk where
  previous : Bytes
  terminal : Option RecoveryTransactionState
  applied : List (Option String)

def Walk.start : Walk := ⟨zeros, none, []⟩

/-- What is known behind one more entry. -/
def Walk.next (walk : Walk) (e : RecoveryJournalEntryV0) : Walk where
  previous := e.entryDigest
  terminal := e.kind.terminal?.or walk.terminal
  applied := if e.kind = .stepApplied then walk.applied ++ [e.stepId] else walk.applied

def checkEntry (number : Int) (previous : Bytes) (e : RecoveryJournalEntryV0) : Guarded Unit := do
  raiseIf (e.sequence ≠ number ∨ e.previousEntryDigest ≠ previous)
    (Fault.journal "journal chain/sequence corruption")
  let digest ← e.ownDigest sha3
  raiseIf (digest ≠ e.entryDigest) (Fault.journal "journal entry digest mismatch")

/-- The loop of `classify_recovery_resume_v0`. -/
def walkEntries : Int → Walk → List RecoveryJournalEntryV0 → Guarded Walk
  | _, walk, [] => .ok walk
  | number, walk, e :: entries => do
    checkEntry sha3 number walk.previous e
    walkEntries (number + 1) (walk.next e) entries

/-- The resume state of a journal that was read. -/
def resumeOf (journal : RecoveryJournalV0) (transaction : RecoveryTransactionV0) (walk : Walk) :
    RecoveryResumeStateV0 :=
  let nextStep := if walk.terminal.isSome ∨
      walk.applied.length = transaction.orderedStepIds.length then none
    else transaction.orderedStepIds[walk.applied.length]?
  { appliedStepIds := walk.applied
    nextStepId := nextStep
    terminalState := walk.terminal
    resumeDigest := sha3 (journalContext ++ encode "resume\x00" ++ journal.journalDigest ++
      (match walk.terminal with
        | none => encode "-"
        | some state => encode state.value) ++
      (match nextStep with
        | none => []
        | some step => encode step))
    resumable := walk.terminal.isNone
    authority := false }

/-- `classify_recovery_resume_v0`. -/
def classifyRecoveryResumeV0 (journal : RecoveryJournalV0) (transaction : RecoveryTransactionV0) :
    Guarded RecoveryResumeStateV0 := do
  raiseIf journal.authority (Fault.journal "authority-free journal required")
  raiseIf (¬ journal.Of transaction) (Fault.journal "journal/transaction drift detected")
  let walk ← walkEntries sha3 1 .start journal.entries
  raiseIf (walk.applied ≠ (transaction.orderedStepIds.take walk.applied.length).map some)
    (Fault.journal "journal applied-step prefix invalid")
  .ok (resumeOf sha3 journal transaction walk)

end Hashes

/-! ## Chains -/

section Chains

variable (sha3 : Bytes → Bytes)

/-- The entries have the numbers from a number on, each has the digest of the one before it, and its
own. -/
def Linked : Int → Bytes → List RecoveryJournalEntryV0 → Prop
  | _, _, [] => True
  | number, previous, e :: entries =>
    e.sequence = number ∧ e.previousEntryDigest = previous ∧
      e.ownDigest sha3 = .ok e.entryDigest ∧ Linked (number + 1) e.entryDigest entries

/-- The digest of the last entry, or what stands before the first. -/
def digestAfter (previous : Bytes) (entries : List RecoveryJournalEntryV0) : Bytes :=
  entries.foldl (fun _ e => e.entryDigest) previous

/-- What is read of a journal: it is of the transaction, its entries are linked, and the steps are the
first ones of the transaction. -/
structure Chained (transaction : RecoveryTransactionV0) (journal : RecoveryJournalV0) : Prop where
  authority : journal.authority = false
  same : journal.Of transaction
  linked : Linked sha3 1 zeros journal.entries
  first : appliedOf journal.entries =
    (transaction.orderedStepIds.take (appliedOf journal.entries).length).map some

variable {sha3} {number : Int} {previous : Bytes} {entries : List RecoveryJournalEntryV0}
  {e : RecoveryJournalEntryV0} {walk after : Walk}

theorem linked_append {more : List RecoveryJournalEntryV0} :
    Linked sha3 number previous (entries ++ more) ↔ Linked sha3 number previous entries ∧
      Linked sha3 (number + entries.length) (digestAfter previous entries) more := by
  induction entries generalizing number previous with
  | nil => simp [Linked, digestAfter]
  | cons e entries ih =>
    have shift : number + 1 + (entries.length : Int) = number + ((e :: entries).length : Int) := by
      rw [length_cons]
      omega
    rw [cons_append, Linked, Linked, ih, shift]
    unfold digestAfter
    rw [foldl_cons, and_assoc, and_assoc, and_assoc]

theorem lastDigest_snoc : lastDigest (entries ++ [e]) = .ok e.entryDigest := by
  unfold lastDigest
  rw [getLast?_concat]

theorem digestAfter_snoc : digestAfter previous (entries ++ [e]) = e.entryDigest := by
  unfold digestAfter
  rw [foldl_append]
  rfl

theorem lastDigest_of_cons {rest : List RecoveryJournalEntryV0} :
    lastDigest (e :: rest) = .ok (digestAfter previous (e :: rest)) := by
  induction rest using reverseRecOn with
  | nil => rfl
  | append_singleton rest last ih =>
    rw [← cons_append, lastDigest_snoc, digestAfter_snoc]

theorem checkEntry_eq_ok {u : Unit} :
    checkEntry sha3 number previous e = .ok u ↔ e.sequence = number ∧
      e.previousEntryDigest = previous ∧ e.ownDigest sha3 = .ok e.entryDigest := by
  simp only [checkEntry, bind_eq_ok_iff, raiseIf_iff, and_assoc, exists_and_left, exists_const,
    exists_eq_right, ne_eq, not_or, not_not]

/-- A journal is read to its end exactly when its entries are linked. -/
theorem walkEntries_eq_ok : walkEntries sha3 number walk entries = .ok after ↔
      Linked sha3 number walk.previous entries ∧ after = entries.foldl Walk.next walk := by
  induction entries generalizing number walk with
  | nil =>
    unfold walkEntries Linked
    constructor
    · intro ran
      cases ran
      exact ⟨trivial, rfl⟩
    · rintro ⟨-, rfl⟩
      rfl
  | cons e entries ih =>
    unfold walkEntries Linked
    rw [foldl_cons]
    constructor
    · intro ran
      obtain ⟨_, checked, ran⟩ := bind_eq_ok ran
      obtain ⟨sequence, link, own⟩ := checkEntry_eq_ok.mp checked
      obtain ⟨linked, same⟩ := ih.mp ran
      exact ⟨⟨sequence, link, own, linked⟩, same⟩
    · rintro ⟨⟨sequence, link, own, linked⟩, same⟩
      have checked : checkEntry sha3 number walk.previous e = .ok () :=
        checkEntry_eq_ok.mpr ⟨sequence, link, own⟩
      rw [bind_of_ok checked]
      exact ih.mpr ⟨linked, same⟩

theorem appliedOf_cons : appliedOf (e :: entries) =
    (if e.kind = .stepApplied then [e.stepId] else []) ++ appliedOf entries := by
  unfold appliedOf
  rw [filter_cons]
  split
  · rename_i applied
    rw [if_pos (of_decide_eq_true applied)]
    rfl
  · rename_i other
    rw [if_neg (fun applied => other (decide_eq_true applied))]
    rfl

theorem appliedOf_append (more : List RecoveryJournalEntryV0) :
    appliedOf (entries ++ more) = appliedOf entries ++ appliedOf more := by
  unfold appliedOf
  rw [filter_append, map_append]

theorem applied_foldl_next :
    (entries.foldl Walk.next walk).applied = walk.applied ++ appliedOf entries := by
  induction entries generalizing walk with
  | nil => exact (append_nil _).symm
  | cons e entries ih =>
    rw [foldl_cons, ih, appliedOf_cons]
    unfold Walk.next
    split
    · rw [append_assoc]
    · rfl

theorem classify_eq_ok {journal : RecoveryJournalV0} {transaction : RecoveryTransactionV0}
    {resume : RecoveryResumeStateV0} :
    classifyRecoveryResumeV0 sha3 journal transaction = .ok resume ↔
      Chained sha3 transaction journal ∧
        resume = resumeOf sha3 journal transaction (journal.entries.foldl Walk.next .start) := by
  simp only [classifyRecoveryResumeV0, bind_eq_ok_iff, raiseIf_iff, walkEntries_eq_ok, and_assoc,
    exists_and_left, exists_eq_left, exists_const, ne_eq, not_not, not_eq_true,
    applied_foldl_next, ok.injEq]
  constructor
  · rintro ⟨authority, same, linked, first, rfl⟩
    exact ⟨⟨authority, same, linked, first⟩, rfl⟩
  · rintro ⟨⟨authority, same, linked, first⟩, rfl⟩
    exact ⟨authority, same, linked, first, rfl⟩

end Chains

end Koschei.Recovery
