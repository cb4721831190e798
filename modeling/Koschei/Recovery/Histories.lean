import Koschei.Recovery.Journal

/-!
# The histories a journal can have

A journal is written by opening it, appending steps and sealing it at most once.
What is written is chained, and it has a form: an entry that opens it, steps, and
at most one entry that seals it; its digest and its terminal flag are those of the
entries. A chained journal of this form can be written.

To classify a journal is to read that it is chained. The form is not read.
-/

namespace Koschei.Recovery

open Lib

/-! ## Writing -/

section Writing

variable (sha3 : Bytes → Bytes) (transaction : RecoveryTransactionV0)

/-- A journal that was opened, and the steps appended. -/
inductive Opened : RecoveryJournalV0 → Prop where
  | opened {evidence : Bytes} {journal : RecoveryJournalV0}
      (ran : openRecoveryJournalV0 sha3 transaction evidence = .ok journal) : Opened journal
  | appended {journal after : RecoveryJournalV0} {step : String} {evidence : Bytes}
      (before : Opened journal)
      (ran : appendRecoveryStepV0 sha3 journal transaction step evidence = .ok after) : Opened after

/-- A journal that was opened, and sealed at most once, with a receipt of the transaction. -/
inductive Written : RecoveryJournalV0 → Prop where
  | unsealed {journal : RecoveryJournalV0} (opened : Opened sha3 transaction journal) : Written journal
  | sealed {journal after : RecoveryJournalV0} {plan : RecoveryPriorityPlanV0}
      {applied : List String} {evidence : Bytes} {commit : Bool}
      {receipt : RecoveryTransactionReceiptV0} (before : Opened sha3 transaction journal)
      (finalized : finalizeRecoveryTransactionV0 sha3 transaction plan applied evidence commit =
        .ok receipt)
      (ran : sealRecoveryJournalV0 sha3 journal receipt = .ok after) : Written after

/-! ## The form of what is written -/

def Opens (e : RecoveryJournalEntryV0) : Prop :=
  e.kind = .prepared ∧ e.stepId = none ∧ e.evidenceDigest ≠ zeros

/-- An entry of a step. -/
def Applies (e : RecoveryJournalEntryV0) : Prop := e.kind = .stepApplied ∧ e.evidenceDigest ≠ zeros

/-- The digest of a journal that was opened with an entry. -/
def openingDigest (first : RecoveryJournalEntryV0) : Bytes :=
  sha3 (journalContext ++ encode "journal\x00" ++ transaction.graphDigest ++
    transaction.recoveryPlanDigest ++ transaction.preparationDigest ++ first.entryDigest)

def runningDigest (first : RecoveryJournalEntryV0) (steps : List RecoveryJournalEntryV0) : Bytes :=
  steps.foldl (fun digest e => sha3 (digest ++ e.entryDigest)) (openingDigest sha3 transaction first)

def stepIds (steps : List RecoveryJournalEntryV0) : List String :=
  steps.filterMap RecoveryJournalEntryV0.stepId

/-- A journal that is open. -/
structure OpenHistory (journal : RecoveryJournalV0) (first : RecoveryJournalEntryV0)
    (steps : List RecoveryJournalEntryV0) : Prop where
  entries : journal.entries = first :: steps
  opens : Opens first
  applies : ∀ e ∈ steps, Applies e
  terminal : journal.terminal = false
  digest : journal.journalDigest = runningDigest sha3 transaction first steps

/-- A journal that is sealed. -/
structure SealedHistory (journal : RecoveryJournalV0) (first : RecoveryJournalEntryV0)
    (steps : List RecoveryJournalEntryV0) (last : RecoveryJournalEntryV0)
    (state : RecoveryTransactionState) : Prop where
  entries : journal.entries = (first :: steps) ++ [last]
  opens : Opens first
  applies : ∀ e ∈ steps, Applies e
  kind : last.kind = terminalKind state
  stepless : last.stepId = none
  evidence : last.evidenceDigest ≠ zeros
  ends : EndsWith transaction (stepIds steps) state
  distinct : (stepIds steps).Nodup
  terminal : journal.terminal = true
  digest : journal.journalDigest = sha3 (runningDigest sha3 transaction first steps ++
    receiptDigest sha3 transaction state (stepIds steps) last.evidenceDigest ++ last.entryDigest)

def WellFormed (journal : RecoveryJournalV0) : Prop :=
  (∃ first steps, OpenHistory sha3 transaction journal first steps) ∨
    ∃ first steps last state, SealedHistory sha3 transaction journal first steps last state

end Writing

/-! ## What the writers do -/

section Writers

variable {sha3 : Bytes → Bytes} {transaction : RecoveryTransactionV0}
  {journal after : RecoveryJournalV0} {evidence : Bytes}

theorem entryDigestOf_eq_ok {sequence : Int} {kind : JournalEventKind} {stepId : Option String}
    {previous digest : Bytes}
    (ran : entryDigestOf sha3 sequence kind stepId evidence previous = .ok digest) :
    evidence.length = 32 := by
  unfold entryDigestOf at ran
  obtain ⟨_, -, ran⟩ := bind_eq_ok ran
  obtain ⟨_, sized, -⟩ := bind_eq_ok ran
  exact (digest32_eq_ok sized).1

theorem open_eq_ok (prepared : transaction.Prepared) :
    openRecoveryJournalV0 sha3 transaction evidence = .ok journal ↔
      ∃ first : RecoveryJournalEntryV0, first.sequence = 1 ∧ first.previousEntryDigest = zeros ∧
        first.evidenceDigest = evidence ∧ Opens first ∧ first.ownDigest sha3 = .ok first.entryDigest ∧
        journal = ⟨transaction.graphDigest, transaction.recoveryPlanDigest,
          transaction.preparationDigest, [first], openingDigest sha3 transaction first, false,
          false⟩ := by
  have ready : ¬ (transaction.authority = true ∨ transaction.state ≠ .prepared) := by
    rintro (authority | other)
    · rw [prepared.authority] at authority
      cases authority
    · exact other prepared.state
  unfold openRecoveryJournalV0
  rw [bind_raiseIf ready]
  simp only [bind_eq_ok_iff, raiseIf_iff, digest32_iff, and_assoc, exists_and_left, exists_eq_left,
    exists_const, ok.injEq]
  constructor
  · rintro ⟨-, nonzero, digest, own, rfl⟩
    exact ⟨⟨1, .prepared, none, evidence, zeros, digest⟩, rfl, rfl, rfl, ⟨rfl, rfl, nonzero⟩, own, rfl⟩
  · rintro ⟨⟨sequence, kind, stepId, evidence', previous, digest⟩, rfl, rfl, rfl,
      ⟨rfl, rfl, nonzero⟩, own, rfl⟩
    exact ⟨entryDigestOf_eq_ok own, nonzero, digest, own, rfl⟩

theorem append_eq_ok {step : String} :
    appendRecoveryStepV0 sha3 journal transaction step evidence = .ok after ↔
      journal.authority = false ∧ journal.terminal = false ∧ journal.Of transaction ∧
        transaction.orderedStepIds[(appliedOf journal.entries).length]? = some step ∧
        ∃ next : RecoveryJournalEntryV0, next.sequence = journal.entries.length + 1 ∧
          lastDigest journal.entries = .ok next.previousEntryDigest ∧ next.stepId = some step ∧
          next.evidenceDigest = evidence ∧ Applies next ∧
          next.ownDigest sha3 = .ok next.entryDigest ∧
          after = { journal with
            entries := journal.entries ++ [next]
            journalDigest := sha3 (journal.journalDigest ++ next.entryDigest)
            terminal := false
            authority := false } := by
  simp only [appendRecoveryStepV0, bind_eq_ok_iff, raiseIf_iff, digest32_iff, and_assoc,
    exists_and_left, exists_eq_left, exists_const, not_or, ne_eq, not_not, not_eq_true,
    ok.injEq]
  constructor
  · rintro ⟨authority, terminal, same, -, ordered, -, nonzero, previous, last, digest, digested, rfl⟩
    exact ⟨authority, terminal, same, ordered,
      ⟨_, .stepApplied, some step, evidence, previous, digest⟩, rfl, last, rfl, rfl, ⟨rfl, nonzero⟩,
      digested, rfl⟩
  · rintro ⟨authority, terminal, same, ordered, ⟨sequence, kind, stepId, evidence', previous, digest⟩,
      rfl, last, rfl, rfl, ⟨rfl, nonzero⟩, digested, rfl⟩
    have inOrder : ¬ transaction.orderedStepIds.length ≤ (appliedOf journal.entries).length := by
      intro beyond
      rw [List.getElem?_eq_none beyond] at ordered
      cases ordered
    exact ⟨authority, terminal, same, inOrder, ordered, entryDigestOf_eq_ok digested, nonzero,
      previous, last, digest, digested, rfl⟩

theorem seal_eq_ok {receipt : RecoveryTransactionReceiptV0} :
    sealRecoveryJournalV0 sha3 journal receipt = .ok after ↔
      journal.authority = false ∧ journal.terminal = false ∧
        (receipt.graphDigest = journal.graphDigest ∧
          receipt.recoveryPlanDigest = journal.recoveryPlanDigest ∧
          receipt.preparationDigest = journal.preparationDigest) ∧
        appliedOf journal.entries = receipt.appliedStepIds.map some ∧
        ∃ last : RecoveryJournalEntryV0, last.sequence = journal.entries.length + 1 ∧
          last.kind = terminalKind receipt.finalState ∧ last.stepId = none ∧
          lastDigest journal.entries = .ok last.previousEntryDigest ∧
          last.evidenceDigest = receipt.terminalEvidenceDigest ∧
          last.ownDigest sha3 = .ok last.entryDigest ∧
          after = { journal with
            entries := journal.entries ++ [last]
            journalDigest := sha3 (journal.journalDigest ++ receipt.receiptDigest ++ last.entryDigest)
            terminal := true
            authority := false } := by
  simp only [sealRecoveryJournalV0, bind_eq_ok_iff, raiseIf_iff, and_assoc, exists_and_left,
    exists_const, not_or, ne_eq, not_not, not_eq_true, ok.injEq]
  constructor
  · rintro ⟨authority, terminal, graph, plan, made, applied, previous, before, digest, digested, rfl⟩
    exact ⟨authority, terminal, graph, plan, made, applied, ⟨_, _, none, _, previous, digest⟩, rfl,
      rfl, rfl, before, rfl, digested, rfl⟩
  · rintro ⟨authority, terminal, graph, plan, made, applied,
      ⟨sequence, kind, stepId, evidence', previous, digest⟩, rfl, rfl, rfl, before, rfl, digested, rfl⟩
    exact ⟨authority, terminal, graph, plan, made, applied, previous, before, digest, digested, rfl⟩

end Writers

/-! ## What is written is chained, and what is chained can be written -/

section Exactness

variable {sha3 : Bytes → Bytes} {transaction : RecoveryTransactionV0}
  {journal after : RecoveryJournalV0} {first next : RecoveryJournalEntryV0}
  {steps : List RecoveryJournalEntryV0}

theorem linked_snoc : Linked sha3 1 zeros ((first :: steps) ++ [next]) ↔
    Linked sha3 1 zeros (first :: steps) ∧ next.sequence = (first :: steps).length + 1 ∧
      lastDigest (first :: steps) = .ok next.previousEntryDigest ∧
      next.ownDigest sha3 = .ok next.entryDigest := by
  have last := @lastDigest_of_cons zeros first steps
  rw [linked_append, last, ok.injEq, Int.add_comm 1]
  constructor
  · rintro ⟨linked, sequence, link, own, -⟩
    exact ⟨linked, sequence, link.symm, own⟩
  · rintro ⟨linked, sequence, link, own⟩
    exact ⟨linked, sequence, link.symm, own, trivial⟩

/-- One more step is the next one. -/
theorem first_snoc {ordered : List String} {applied : List (Option String)} {step : Option String} :
    applied ++ [step] = (ordered.take (applied ++ [step]).length).map some ↔
      applied = (ordered.take applied.length).map some ∧
        ∃ id, step = some id ∧ ordered[applied.length]? = some id := by
  rw [length_append, length_singleton, List.take_add_one, map_append]
  cases found : ordered[applied.length]? with
  | none =>
    rw [toList_none, map_nil, append_nil]
    constructor
    · intro same
      have lengths := congrArg List.length same
      rw [length_append, length_singleton, length_map, List.length_take] at lengths
      omega
    · rintro ⟨-, id, -, impossible⟩
      cases impossible
  | some id =>
    rw [Option.toList_some, map_singleton]
    constructor
    · intro same
      obtain ⟨before, last⟩ := append_inj' same rfl
      exact ⟨before, id, List.singleton_inj.mp last, rfl⟩
    · rintro ⟨before, id', rfl, same⟩
      cases same
      rw [← before]

theorem appliedOf_history (opens : Opens first) (applies : ∀ e ∈ steps, Applies e) :
    appliedOf (first :: steps) = steps.map RecoveryJournalEntryV0.stepId := by
  have noStep : ¬ first.kind = .stepApplied := by
    rw [opens.1]
    decide
  have all : steps.filter (fun e => decide (e.kind = .stepApplied)) = steps :=
    List.filter_eq_self.mpr fun e member => decide_eq_true (applies e member).1
  rw [appliedOf_cons, if_neg noStep, nil_append, appliedOf, all]

theorem stepIds_of_map {ids : List String}
    (same : steps.map RecoveryJournalEntryV0.stepId = ids.map some) : stepIds steps = ids := by
  have mapped : stepIds steps = (steps.map RecoveryJournalEntryV0.stepId).filterMap id := by
    rw [List.filterMap_map]
    rfl
  rw [mapped, same, List.filterMap_map]
  exact List.filterMap_some

theorem stepIds_of_chained (chained : Chained sha3 transaction journal)
    (entries : journal.entries = first :: steps) (opens : Opens first)
    (applies : ∀ e ∈ steps, Applies e) : appliedOf journal.entries = (stepIds steps).map some := by
  have prefixed := chained.first
  rw [entries, appliedOf_history opens applies] at prefixed ⊢
  rw [stepIds_of_map prefixed]
  exact prefixed

section

variable (prepared : transaction.Prepared)

include prepared

theorem opened_chained (opened : Opened sha3 transaction journal) :
    Chained sha3 transaction journal ∧
      ∃ first steps, OpenHistory sha3 transaction journal first steps := by
  induction opened with
  | opened ran =>
    obtain ⟨first, sequence, link, rfl, opens, own, rfl⟩ := (open_eq_ok prepared).mp ran
    have noStep : appliedOf [first] = [] := by
      rw [appliedOf_history opens (forall_mem_nil _), map_nil]
    refine ⟨⟨rfl, ⟨rfl, rfl, rfl⟩, ⟨sequence, link, own, trivial⟩, ?_⟩, first, [], rfl, opens,
      forall_mem_nil _, rfl, rfl⟩
    rw [noStep]
    rfl
  | appended _ ran ih =>
    obtain ⟨chained, first, steps, history⟩ := ih
    obtain ⟨-, -, same, ordered, next, sequence, last, step, -, applies, own, rfl⟩ :=
      append_eq_ok.mp ran
    rename_i journal _ _ _
    have entries := history.entries
    have linked := chained.linked
    have prefixed := chained.first
    rw [entries] at sequence last linked
    have steps' : appliedOf (journal.entries ++ [next]) =
        appliedOf journal.entries ++ [next.stepId] := by
      rw [appliedOf_append, appliedOf_cons, if_pos applies.1]
      rfl
    refine ⟨⟨rfl, same, ?_, ?_⟩, first, steps ++ [next], ?_, history.opens, ?_, rfl, ?_⟩
    · dsimp only
      rw [entries]
      exact linked_snoc.mpr ⟨linked, sequence, last, own⟩
    · dsimp only
      rw [steps']
      exact first_snoc.mpr ⟨prefixed, _, step, ordered⟩
    · dsimp only
      rw [entries, cons_append]
    · intro e member
      rcases mem_append.mp member with before | here
      · exact history.applies e before
      · rw [mem_singleton.mp here]
        exact applies
    · dsimp only
      rw [history.digest, runningDigest, runningDigest, foldl_append]
      rfl

theorem written_wellFormed (written : Written sha3 transaction journal) :
    Chained sha3 transaction journal ∧ WellFormed sha3 transaction journal := by
  cases written with
  | unsealed opened =>
    obtain ⟨chained, history⟩ := opened_chained prepared opened
    exact ⟨chained, .inl history⟩
  | sealed before finalized ran =>
    obtain ⟨chained, first, steps, history⟩ := opened_chained prepared before
    obtain ⟨state, finalizable, rfl, -⟩ := finalize_eq_ok finalized
    obtain ⟨-, -, -, applied, last, sequence, kind, stepless, link, evidence, own, rfl⟩ :=
      seal_eq_ok.mp ran
    rename_i journal _ applied' _ _
    have entries := history.entries
    have linked := chained.linked
    have steps' : appliedOf (journal.entries ++ [last]) = appliedOf journal.entries := by
      have noStep : ¬ last.kind = .stepApplied := by
        rw [kind]
        unfold terminalKind
        split <;> decide
      rw [appliedOf_append, appliedOf_cons, if_neg noStep]
      exact append_nil _
    have ids : stepIds steps = applied' := by
      rw [entries, appliedOf_history history.opens history.applies] at applied
      exact stepIds_of_map applied
    refine ⟨⟨rfl, chained.same, ?_, ?_⟩, .inr ⟨first, steps, last, state, ?_, history.opens,
      history.applies, kind, stepless, ?_, ?_, ?_, rfl, ?_⟩⟩
    · dsimp only
      rw [entries] at sequence link linked ⊢
      exact linked_snoc.mpr ⟨linked, sequence, link, own⟩
    · dsimp only
      rw [steps']
      exact chained.first
    · dsimp only
      rw [entries]
    · rw [evidence]
      exact finalizable.nonzero
    · rw [ids]
      exact finalizable.ends
    · rw [ids]
      exact finalizable.distinct
    · dsimp only
      rw [history.digest, ids, evidence]
      rfl

theorem opened_of_history (chained : Chained sha3 transaction journal)
    (history : OpenHistory sha3 transaction journal first steps) :
    Opened sha3 transaction journal := by
  induction steps using reverseRecOn generalizing journal with
  | nil =>
    obtain ⟨authority, ⟨graph, plan, preparation⟩, linked, -⟩ := chained
    obtain ⟨entries, opens, -, terminal, digest⟩ := history
    rw [entries] at linked
    obtain ⟨sequence, link, own, -⟩ := linked
    obtain ⟨graph', plan', preparation', entries', digest', terminal', authority'⟩ := journal
    dsimp only at authority graph plan preparation entries terminal digest
    subst authority graph plan preparation entries terminal digest
    exact .opened ((open_eq_ok prepared).mpr ⟨first, sequence, link, rfl, opens, own, rfl⟩)
  | append_singleton steps next ih =>
    have entries := history.entries
    have linked := chained.linked
    have prefixed := chained.first
    have applies := history.applies next (mem_append_right _ (mem_singleton_self _))
    have split : appliedOf (first :: (steps ++ [next])) =
        appliedOf (first :: steps) ++ [next.stepId] := by
      rw [← cons_append, appliedOf_append, @appliedOf_cons [] next, if_pos applies.1]
      rfl
    rw [entries, ← cons_append] at linked
    rw [entries, split] at prefixed
    obtain ⟨linked, sequence, link, own⟩ := linked_snoc.mp linked
    obtain ⟨prefixed, id, step, ordered⟩ := first_snoc.mp prefixed
    -- The journal before the last step.
    let before : RecoveryJournalV0 := { journal with
      entries := first :: steps
      journalDigest := runningDigest sha3 transaction first steps }
    have opened : Opened sha3 transaction before := by
      refine @ih before ⟨chained.authority, chained.same, linked, prefixed⟩
        ⟨rfl, history.opens, fun e member => ?_, history.terminal, rfl⟩
      exact history.applies e (mem_append_left _ member)
    refine .appended opened (append_eq_ok.mpr ⟨chained.authority, history.terminal, chained.same,
      ordered, next, sequence, link, step, rfl, applies, own, ?_⟩)
    obtain ⟨graph', plan', preparation', entries', digest', terminal', authority'⟩ := journal
    have digest := history.digest
    have terminal := history.terminal
    have authority := chained.authority
    dsimp only at entries digest terminal authority
    rw [runningDigest, foldl_append] at digest
    subst entries digest terminal authority
    rfl

variable {last : RecoveryJournalEntryV0} {state : RecoveryTransactionState}

omit prepared in
theorem appliedOf_sealed (history : SealedHistory sha3 transaction journal first steps last state) :
    appliedOf journal.entries = steps.map RecoveryJournalEntryV0.stepId := by
  have noStep : ¬ last.kind = .stepApplied := by
    rw [history.kind]
    unfold terminalKind
    split <;> decide
  rw [history.entries, appliedOf_append, @appliedOf_cons [] last, if_neg noStep,
    appliedOf_history history.opens history.applies]
  exact append_nil _

theorem written_of_sealed (chained : Chained sha3 transaction journal)
    (history : SealedHistory sha3 transaction journal first steps last state) :
    Written sha3 transaction journal := by
  have entries := history.entries
  have linked := chained.linked
  have prefixed := chained.first
  rw [entries] at linked
  rw [appliedOf_sealed history, ← appliedOf_history history.opens history.applies] at prefixed
  obtain ⟨linked, sequence, link, own⟩ := linked_snoc.mp linked
  -- The journal before it was sealed.
  let before : RecoveryJournalV0 := { journal with
    entries := first :: steps
    journalDigest := runningDigest sha3 transaction first steps
    terminal := false }
  have chained' : Chained sha3 transaction before :=
    ⟨chained.authority, chained.same, linked, prefixed⟩
  have opened : Opened sha3 transaction before :=
    opened_of_history prepared chained' ⟨rfl, history.opens, history.applies, rfl, rfl⟩
  have applied := stepIds_of_chained chained' rfl history.opens history.applies
  have finalizable : Finalizable transaction (stepIds steps) last.evidenceDigest state :=
    ⟨prepared, history.distinct, entryDigestOf_eq_ok own, history.evidence, history.ends⟩
  refine .sealed opened (finalize_of_finalizable finalizable) (seal_eq_ok.mpr
    ⟨chained.authority, rfl, chained.same, applied, last, sequence, history.kind, history.stepless,
      link, rfl, own, ?_⟩)
  obtain ⟨graph', plan', preparation', entries', digest', terminal', authority'⟩ := journal
  have digest := history.digest
  have terminal := history.terminal
  have authority := chained.authority
  dsimp only at entries digest terminal authority
  subst entries digest terminal authority
  rfl

/-- A journal can be written exactly when it is chained and has the form of a history. -/
theorem written_iff : Written sha3 transaction journal ↔
      Chained sha3 transaction journal ∧ WellFormed sha3 transaction journal := by
  refine ⟨written_wellFormed prepared, ?_⟩
  rintro ⟨chained, ⟨first, steps, history⟩ | ⟨first, steps, last, state, history⟩⟩
  · exact .unsealed (opened_of_history prepared chained history)
  · exact written_of_sealed prepared chained history

end

/-! ## Reading and writing -/

variable (sha3 transaction)

/-- What an entry makes of the digest of a journal in which steps were applied. -/
def digestStep (applied : List String) (digest : Bytes) (e : RecoveryJournalEntryV0) : Bytes :=
  match e.kind.terminal? with
  | none => sha3 (digest ++ e.entryDigest)
  | some state =>
    sha3 (digest ++ receiptDigest sha3 transaction state applied e.evidenceDigest ++ e.entryDigest)

def digestOfEntries : List RecoveryJournalEntryV0 → Option Bytes
  | [] => none
  | first :: rest => some (rest.foldl (digestStep sha3 transaction (stepIds (first :: rest)))
      (openingDigest sha3 transaction first))

/-- A journal is classified. -/
def Accepted (journal : RecoveryJournalV0) : Prop :=
  ∃ resume, classifyRecoveryResumeV0 sha3 journal transaction = .ok resume

/-- A journal is accepted exactly when it can be written; so no accepted journal goes on behind its
end, is committed with steps missing, or has another flag or digest than its entries. -/
structure VerifiesExactly (journal : RecoveryJournalV0) : Prop where
  exact : Accepted sha3 transaction journal ↔ Written sha3 transaction journal
  last : Accepted sha3 transaction journal → ∀ e ∈ journal.entries.dropLast, e.kind.terminal? = none
  complete : Accepted sha3 transaction journal → (∃ e ∈ journal.entries, e.kind = .committed) →
    appliedOf journal.entries = transaction.orderedStepIds.map some
  flag : Accepted sha3 transaction journal →
    (journal.terminal = true ↔ ∃ e ∈ journal.entries, e.kind.terminal? ≠ none)
  digest : Accepted sha3 transaction journal →
    digestOfEntries sha3 transaction journal.entries = some journal.journalDigest

variable {sha3 transaction}

theorem accepted_iff : Accepted sha3 transaction journal ↔ Chained sha3 transaction journal := by
  constructor
  · rintro ⟨resume, ran⟩
    exact (classify_eq_ok.mp ran).1
  · intro chained
    exact ⟨_, classify_eq_ok.mpr ⟨chained, rfl⟩⟩

theorem terminal?_of_opens (opens : Opens first) : first.kind.terminal? = none := by
  rw [opens.1]
  rfl

theorem terminal?_of_applies (applies : Applies next) : next.kind.terminal? = none := by
  rw [applies.1]
  rfl

/-- No entry of an open history ends it. -/
theorem no_end (opens : Opens first) (applies : ∀ e ∈ steps, Applies e) :
    ∀ e ∈ first :: steps, e.kind.terminal? = none :=
  forall_mem_cons.mpr
    ⟨terminal?_of_opens opens, fun e member => terminal?_of_applies (applies e member)⟩

/-- Steps make of a digest what they make of it when they are written. -/
theorem foldl_digestStep (applies : ∀ e ∈ steps, Applies e) (applied : List String) (digest : Bytes) :
    steps.foldl (digestStep sha3 transaction applied) digest =
      steps.foldl (fun digest e => sha3 (digest ++ e.entryDigest)) digest := by
  apply List.foldl_ext
  intro digest e member
  unfold digestStep
  rw [terminal?_of_applies (applies e member)]

theorem terminal?_of_ends {ids : List String}
    (ends : EndsWith transaction ids state) : (terminalKind state).terminal? = some state := by
  cases state with
  | prepared => exact ends.elim
  | committed => rfl
  | aborted => rfl

theorem stepIds_cons (opens : Opens first) : stepIds (first :: steps) = stepIds steps := by
  unfold stepIds
  rw [filterMap_cons, opens.2.1]

theorem verifies_of_open (history : OpenHistory sha3 transaction journal first steps) :
    (∀ e ∈ journal.entries, e.kind.terminal? = none) ∧
      digestOfEntries sha3 transaction journal.entries = some journal.journalDigest := by
  have none_ends := no_end history.opens history.applies
  rw [history.entries, history.digest]
  refine ⟨none_ends, ?_⟩
  exact congrArg some (foldl_digestStep history.applies _ _)

theorem verifies_of_sealed
    (history : SealedHistory sha3 transaction journal first steps last state) :
    digestOfEntries sha3 transaction journal.entries = some journal.journalDigest := by
  have ending := terminal?_of_ends history.ends
  rw [← history.kind] at ending
  have ids : stepIds (first :: (steps ++ [last])) = stepIds steps := by
    rw [stepIds_cons history.opens]
    unfold stepIds
    rw [List.filterMap_append, filterMap_cons, history.stepless]
    exact append_nil _
  rw [history.entries, history.digest, cons_append, digestOfEntries, ids, foldl_append,
    foldl_digestStep history.applies]
  unfold digestStep
  rw [foldl_cons, List.foldl_nil, ending]
  rfl

theorem verifies_of_wellFormed (prepared : transaction.Prepared)
    (formed : Chained sha3 transaction journal → WellFormed sha3 transaction journal) :
    VerifiesExactly sha3 transaction journal where
  exact := by
    rw [accepted_iff, written_iff prepared]
    exact ⟨fun chained => ⟨chained, formed chained⟩, And.left⟩
  last accepted := by
    rcases formed (accepted_iff.mp accepted) with
      ⟨first, steps, history⟩ | ⟨first, steps, last, state, history⟩
    · exact fun e member => (verifies_of_open history).1 e (List.dropLast_subset _ member)
    · rw [history.entries, List.dropLast_concat]
      exact no_end history.opens history.applies
  complete accepted := by
    have chained := accepted_iff.mp accepted
    rintro ⟨e, member, committed⟩
    rcases formed chained with ⟨first, steps, history⟩ | ⟨first, steps, last, state, history⟩
    · have going := (verifies_of_open history).1 e member
      rw [committed] at going
      cases going
    · rw [history.entries] at member
      rcases mem_append.mp member with before | here
      · have going := no_end history.opens history.applies e before
        rw [committed] at going
        cases going
      · rw [mem_singleton.mp here, history.kind] at committed
        have ends := history.ends
        have prefixed := chained.first
        rw [appliedOf_sealed history] at prefixed ⊢
        have ids := stepIds_of_map prefixed
        cases state with
        | prepared => exact ends.elim
        | committed =>
          have all : stepIds steps = transaction.orderedStepIds := ends
          rw [prefixed, ← ids, all]
        | aborted => cases committed
  flag accepted := by
    rcases formed (accepted_iff.mp accepted) with
      ⟨first, steps, history⟩ | ⟨first, steps, last, state, history⟩
    · rw [history.terminal]
      constructor
      · intro impossible
        cases impossible
      · rintro ⟨e, member, ends⟩
        exact absurd ((verifies_of_open history).1 e member) ends
    · refine ⟨fun _ => ⟨last, ?_, ?_⟩, fun _ => history.terminal⟩
      · rw [history.entries]
        exact mem_append_right _ (mem_singleton_self _)
      · rw [history.kind, terminal?_of_ends history.ends]
        exact Option.some_ne_none _
  digest accepted := by
    rcases formed (accepted_iff.mp accepted) with
      ⟨first, steps, history⟩ | ⟨first, steps, last, state, history⟩
    · exact (verifies_of_open history).2
    · exact verifies_of_sealed history

/-- The verification of journals is exact on a journal unless it is chained without having the form
of a history. -/
theorem verifies_exactly_iff (sha3 : Bytes → Bytes) (transaction : RecoveryTransactionV0)
    (journal : RecoveryJournalV0) (prepared : transaction.Prepared) :
    VerifiesExactly sha3 transaction journal ↔
      (Chained sha3 transaction journal → WellFormed sha3 transaction journal) := by
  refine ⟨fun verifies chained => ?_, verifies_of_wellFormed prepared⟩
  exact (written_wellFormed prepared (verifies.exact.mp (accepted_iff.mpr chained))).2

end Exactness

/-! ## A commit without steps -/

/-- A hash of 32 bytes. -/
def checksum (text : Bytes) : Bytes :=
  bigEndian 32 (text.foldl (fun sum byte => (sum * 257 + byte.toNat + 1) % 2 ^ 256) 0)

/-- Evidence, and digests, of one byte. -/
def filled (byte : UInt8) : Bytes := replicate 32 byte

def twoSteps : RecoveryTransactionV0 where
  graphDigest := filled 1
  recoveryPlanDigest := filled 2
  orderedStepIds := ["s1", "s2"]
  preparedStepIds := ["s1", "s2"]
  preparationDigest := filled 3
  state := .prepared
  authority := false

def firstEntry (kind : JournalEventKind) (byte : UInt8) : RecoveryJournalEntryV0 where
  sequence := 1
  kind := kind
  stepId := none
  evidenceDigest := filled byte
  previousEntryDigest := zeros
  entryDigest := match entryDigestOf checksum 1 kind none (filled byte) zeros with
    | .ok digest => digest
    | .error _ => []

/-- A journal of one entry, with the digest of a journal that was opened with it. -/
def shortJournal (kind : JournalEventKind) (byte : UInt8) : RecoveryJournalV0 where
  graphDigest := filled 1
  recoveryPlanDigest := filled 2
  preparationDigest := filled 3
  entries := [firstEntry kind byte]
  journalDigest := openingDigest checksum twoSteps (firstEntry kind byte)
  terminal := false
  authority := false

theorem verifies_exactly_iff_short : VerifiesExactly checksum twoSteps (shortJournal .prepared 4) ↔
      (Chained checksum twoSteps (shortJournal .prepared 4) →
        WellFormed checksum twoSteps (shortJournal .prepared 4)) :=
  verifies_exactly_iff checksum twoSteps (shortJournal .prepared 4) ⟨rfl, rfl⟩

/-- A journal whose only entry says that the transaction is committed is accepted as committed, with
no step applied and the terminal flag not set. -/
theorem commit_without_steps_accepted :
    (classifyRecoveryResumeV0 checksum (shortJournal .committed 4) twoSteps).map (fun resume =>
        (resume.appliedStepIds, resume.terminalState, resume.resumable)) =
      .ok ([], some .committed, false) ∧
      ¬ Written checksum twoSteps (shortJournal .committed 4) ∧
      ¬ VerifiesExactly checksum twoSteps (shortJournal .committed 4) := by
  have read : (classifyRecoveryResumeV0 checksum (shortJournal .committed 4) twoSteps).map
      (fun resume => (resume.appliedStepIds, resume.terminalState, resume.resumable)) =
        .ok ([], some .committed, false) := by decide +kernel
  obtain ⟨resume, ran, -⟩ := map_eq_ok read
  have unfinished : ¬ VerifiesExactly checksum twoSteps (shortJournal .committed 4) := by
    intro verifies
    have all := verifies.complete ⟨resume, ran⟩ ⟨_, mem_cons_self, rfl⟩
    exact absurd all (by decide)
  refine ⟨read, fun written => unfinished ?_, unfinished⟩
  exact verifies_of_wellFormed ⟨rfl, rfl⟩ fun _ => (written_wellFormed ⟨rfl, rfl⟩ written).2

end Koschei.Recovery
