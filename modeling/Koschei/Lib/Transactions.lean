import Koschei.Lib.Runs

/-!
# Clients of a transactional store

Clients share a store of tables. A call of a client first makes checks that do
not look into the store; what they leave is prepared for one transaction. The
transaction runs alone. It changes the tables or raises, and what raises is
rolled back; the store can also be unavailable to it at any point. Between the
checks and the transaction of one client, those of other clients run, and a
client can be lost.

What the transactions preserve holds throughout every interleaving, and what
they relate is related between any two moments.
-/

namespace Koschei.Lib

variable {Tables Call Prepared Answer Fault : Type}

/-- What clients do, one event after the other. -/
inductive ClientEvent (Call : Type) where
  /-- A client makes a call and the checks before its transaction. -/
  | start (client : Nat) (call : Call)
  /-- The transaction of a client runs, or finds the store unavailable. -/
  | transact (client : Nat) (available : Bool)
  /-- A client is lost. -/
  | crash (client : Nat)

/-- The tables, and what the clients have prepared. -/
structure Clients (Tables Prepared : Type) where
  tables : Tables
  pending : List (Nat × Prepared)

def Clients.without (system : Clients Tables Prepared) (client : Nat) : List (Nat × Prepared) :=
  system.pending.filter fun entry => entry.1 != client

/-- The calls of the clients of a store: the checks before a transaction, the transaction, and the
fault of an unavailable store. -/
structure Database (Tables Call Prepared Answer Fault : Type) where
  prepare : Call → Except Fault Prepared
  body : Prepared → Tables → Except Fault (Tables × Answer)
  unavailable : Fault

namespace Database

variable (store : Database Tables Call Prepared Answer Fault)

/-- One transaction: what raises is rolled back. -/
def transaction (prepared : Prepared) (available : Bool) (tables : Tables) :
    Except Fault Answer × Tables :=
  if available then
    match store.body prepared tables with
    | .ok (after, answer) => (.ok answer, after)
    | .error fault => (.error fault, tables)
  else (.error store.unavailable, tables)

/-- One event, with the answer of the call it ends. -/
def clientStep (system : Clients Tables Prepared) :
    ClientEvent Call → Option (Except Fault Answer) × Clients Tables Prepared
  | .start client call =>
    match store.prepare call with
    | .error fault => (some (.error fault), system)
    | .ok prepared => (none, ⟨system.tables, (client, prepared) :: system.without client⟩)
  | .transact client available =>
    match system.pending.lookup client with
    | none => (none, system)
    | some prepared =>
      let done := store.transaction prepared available system.tables
      (some done.1, ⟨done.2, system.without client⟩)
  | .crash client => (none, ⟨system.tables, system.without client⟩)

variable {store} {system : Clients Tables Prepared} {client : Nat} {prepared : Prepared}

theorem clientStep_start {call : Call} (passed : store.prepare call = .ok prepared) :
    store.clientStep system (.start client call) =
      (none, ⟨system.tables, (client, prepared) :: system.without client⟩) := by
  unfold clientStep
  dsimp only
  rw [passed]

variable {entry : Nat × Prepared}

theorem mem_without (member : entry ∈ system.without client) : entry ∈ system.pending :=
  (mem_filter.mp member).1

theorem mem_of_lookup {entries : List (Nat × Prepared)}
    (found : entries.lookup client = some prepared) : (client, prepared) ∈ entries := by
  obtain ⟨before, after, rfl, -⟩ := lookup_eq_some_iff.mp found
  exact mem_append_right _ mem_cons_self

theorem pending_cases (system : Clients Tables Prepared) (event : ClientEvent Call)
    (member : entry ∈ (store.clientStep system event).2.pending) :
    entry ∈ system.pending ∨
      ∃ client call, event = .start client call ∧ store.prepare call = .ok entry.2 := by
  cases event with
  | start client call =>
    unfold clientStep at member
    dsimp only at member
    split at member
    · exact .inl member
    · rename_i prepared checked
      rcases mem_cons.mp member with rfl | kept
      · exact .inr ⟨client, call, rfl, checked⟩
      · exact .inl (mem_without kept)
  | crash client => exact .inl (mem_without member)
  | transact client available =>
    unfold clientStep at member
    dsimp only at member
    split at member
    · exact .inl member
    · exact .inl (mem_without member)

/-! ## Runs -/

def Presented (events : List (ClientEvent Call)) (call : Call) : Prop :=
  ∃ client, ClientEvent.start client call ∈ events

theorem pending_presented {events : List (ClientEvent Call)} (tables : Tables) :
    ∀ moment ∈ trace store.clientStep ⟨tables, []⟩ events, ∀ entry ∈ moment.before.pending,
      ∃ call, Presented events call ∧ store.prepare call = .ok entry.2 := by
  refine before_of_invariant (I := fun system : Clients Tables Prepared => ∀ entry ∈ system.pending,
    ∃ call, Presented events call ∧ store.prepare call = .ok entry.2) (forall_mem_nil _) ?_
  intro moment member earlier entry pending
  have after : moment.after = (store.clientStep moment.before moment.call).2 := by
    rw [step_of_mem_trace member]
  rw [after] at pending
  rcases pending_cases moment.before moment.call pending with kept | ⟨client, call, same, checked⟩
  · exact earlier entry kept
  · have presented := call_of_mem_trace member
    rw [same] at presented
    exact ⟨call, ⟨client, presented⟩, checked⟩

/-- A moment of a run. -/
abbrev Event (Tables Call Prepared Answer Fault : Type) : Type :=
  Moment (Clients Tables Prepared) (ClientEvent Call) (Option (Except Fault Answer))

/-- At the moment the transaction of a client finds the store and succeeds. -/
def Ran (store : Database Tables Call Prepared Answer Fault)
    (moment : Event Tables Call Prepared Answer Fault) (prepared : Prepared) (answer : Answer) :
    Prop :=
  ∃ client, moment.call = .transact client true ∧
    moment.before.pending.lookup client = some prepared ∧
    store.body prepared moment.before.tables = .ok (moment.after.tables, answer)

variable {events : List (ClientEvent Call)} {tables : Tables}
  {moment : Event Tables Call Prepared Answer Fault}

section

variable (member : moment ∈ trace store.clientStep ⟨tables, []⟩ events)

include member

/-- Everything a moment of a run can do to the tables: it leaves them and answers with no success,
or it is a transaction that succeeds. -/
theorem moment_cases :
    (moment.after.tables = moment.before.tables ∧ ∀ answer, moment.answer ≠ some (.ok answer)) ∨
      ∃ prepared answer, Ran store moment prepared answer ∧ moment.answer = some (.ok answer) := by
  have step := step_of_mem_trace member
  obtain ⟨before, event, answer, after⟩ := moment
  dsimp only at step ⊢
  cases event with
  | start client call =>
    unfold clientStep at step
    dsimp only at step
    split at step
    · cases step
      exact .inl ⟨rfl, nofun⟩
    · cases step
      exact .inl ⟨rfl, nofun⟩
  | crash client =>
    cases step
    exact .inl ⟨rfl, nofun⟩
  | transact client available =>
    unfold clientStep transaction at step
    dsimp only at step
    split at step
    · cases step
      exact .inl ⟨rfl, nofun⟩
    · rename_i prepared found
      cases available with
      | false =>
        cases step
        exact .inl ⟨rfl, nofun⟩
      | true =>
        rw [if_pos rfl] at step
        cases ran : store.body prepared before.tables with
        | error fault =>
          rw [ran] at step
          cases step
          exact .inl ⟨rfl, nofun⟩
        | ok result =>
          obtain ⟨changed, answer⟩ := result
          rw [ran] at step
          cases step
          exact .inr ⟨prepared, answer, ⟨client, rfl, found, ran⟩, rfl⟩

/-- A transaction whose body succeeds runs. -/
theorem ran_of_body {after : Tables} {answer : Answer} (call : moment.call = .transact client true)
    (found : moment.before.pending.lookup client = some prepared)
    (body : store.body prepared moment.before.tables = .ok (after, answer)) :
    Ran store moment prepared answer := by
  have step := step_of_mem_trace member
  rw [call] at step
  unfold clientStep transaction at step
  dsimp only at step
  rw [found] at step
  dsimp only at step
  rw [if_pos rfl, body] at step
  have changed : moment.after.tables = after := congrArg Clients.tables (congrArg snd step).symm
  exact ⟨client, call, found, by rw [changed, body]⟩

theorem unchanged_of_error {fault : Fault} (raised : moment.answer = some (.error fault)) :
    moment.after.tables = moment.before.tables := by
  rcases moment_cases member with ⟨same, -⟩ | ⟨prepared, answer, -, answered⟩
  · exact same
  · rw [raised] at answered
    cases answered

/-- What a transaction runs was prepared by a call of the run. -/
theorem ran_presented {answer : Answer} (ran : Ran store moment prepared answer) :
    ∃ call, Presented events call ∧ store.prepare call = .ok prepared := by
  obtain ⟨client, -, found, -⟩ := ran
  exact pending_presented tables moment member _ (mem_of_lookup found)

end

end Database

end Koschei.Lib
