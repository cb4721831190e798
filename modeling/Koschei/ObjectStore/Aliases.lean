import Koschei.Lib.Checks
import Koschei.Lib.Hexadecimal
import Koschei.Lib.Renaming
import Koschei.Lib.Table

/-!
# Rotation of aliases

`epoch_alias_rotation_v1.py` renames the objects of a store from their old aliases
to new ones. Every object is first staged under a temporary name, and installed
under its new alias when all are staged; then the objects are verified. When a
step fails, the renames are undone from the last move to the first.

What was staged and installed is kept by the object ids of the moves. A rename
that undoes a move replaces what is at the old alias of the move.
-/

namespace Koschei.ObjectStore

open Lib

abbrev Bytes : Type := List UInt8

/-- An object store: the contents of its names. -/
abbrev Store : Type := String → Option Bytes

/-- What is raised: an `AliasRotationError`, or another exception. -/
inductive AliasFault where
  | rotation (message : String)
  | other (message : String)
  deriving DecidableEq

abbrev Checked (α : Type) : Type := Except AliasFault α

/-- `AliasMove`. -/
structure AliasMove where
  objectId : String
  oldAlias : String
  newAlias : String
  deriving DecidableEq

open AliasMove (newAlias objectId oldAlias)

/-! ## The checks before a rotation -/

/-- `_safe_locator`. -/
def safeLocator (value : String) : Checked String := do
  raiseIf (value = "") (.rotation "invalid epoch_alias")
  raiseIf (value = "." ∨ value = ".." ∨ '/' ∈ value.toList ∨ '\\' ∈ value.toList)
    (.rotation "epoch_alias must be an opaque single-path locator")
  raiseIf (value.length < 8) (.rotation "epoch_alias is too short")
  .ok value

section Preflight

variable (sha256 : Bytes → Bytes) (store : Store)

/-- The checks of the moves, after some aliases and hashes. -/
def checkMoves : List String → List String → List (String × Bytes) → List AliasMove →
    Checked (List String × List (String × Bytes))
  | olds, _, hashes, [] => .ok (olds, hashes)
  | olds, news, hashes, move :: moves => do
    let old ← safeLocator move.oldAlias
    let new ← safeLocator move.newAlias
    raiseIf (old ∈ olds) (.rotation "rotation plan contains duplicate old alias")
    raiseIf (new ∈ news) (.rotation "rotation plan contains duplicate new alias")
    match store old with
    | none => .error (.rotation ("rotation source missing for object " ++ move.objectId))
    | some contents =>
      checkMoves (olds ++ [old]) (news ++ [new])
        (Dictionary.put hashes move.objectId (sha256 contents)) moves

/-- The checks of the destinations, when the old aliases are known. -/
def checkDestinations (olds : List String) : List AliasMove → Checked Unit
  | [] => .ok ()
  | move :: moves => do
    raiseIf (move.newAlias ∉ olds ∧ (store move.newAlias).isSome)
      (.rotation ("rotation destination already exists for object " ++ move.objectId))
    checkDestinations olds moves

/-- `_preflight_moves`, in a store that is a directory. -/
def preflightMoves (moves : List AliasMove) : Checked (List (String × Bytes)) := do
  let (olds, hashes) ← checkMoves sha256 store [] [] [] moves
  checkDestinations store olds moves
  .ok hashes

end Preflight

/-! ## The rotation -/

/-- A step that can fail: the staging, the installation or the verification of a move. -/
inductive RotationStep where
  | stage (index : Nat)
  | install (index : Nat)
  | verify (index : Nat)
  deriving DecidableEq

/-- The store, the temporary names of the objects that are staged, and the objects that are
installed. -/
structure Rotation where
  store : Store
  staged : List (String × String)
  finalised : List String

/-- The temporary name of the move of an index: `f"KROTATE{token}{index:08x}"`. -/
def temporaryName (token : String) (index : Nat) : String :=
  "KROTATE" ++ token ++ ofList (hexadecimal 8 index)

/-- A temporary name starts with a letter of its own. -/
theorem temporaryName_head (token : String) (index : Nat) :
    (temporaryName token index).toList.head? = some 'K' := by
  unfold temporaryName
  rw [toList_append, toList_append]
  rfl

section Steps

variable (temporary : Nat → String) (fails : RotationStep → Bool)

def stageMoves : Nat → List AliasMove → Rotation → Rotation × Option AliasFault
  | _, [], rotation => (rotation, none)
  | index, move :: moves, rotation =>
    if (rotation.store (temporary index)).isSome then
      (rotation, some (.rotation "rotation temporary locator collision"))
    else if fails (.stage index) then (rotation, some (.other "OSError"))
    else match rename move.oldAlias (temporary index) rotation.store with
      | none => (rotation, some (.other "FileNotFoundError"))
      | some store =>
        stageMoves (index + 1) moves { rotation with
          store := store
          staged := Dictionary.put rotation.staged move.objectId (temporary index) }

/-- The moves are installed from an index on. -/
def finaliseMoves : Nat → List AliasMove → Rotation → Rotation × Option AliasFault
  | _, [], rotation => (rotation, none)
  | index, move :: moves, rotation =>
    match rotation.staged.lookup move.objectId with
    | none => (rotation, some (.other "KeyError"))
    | some current =>
      if fails (.install index) then (rotation, some (.other "OSError"))
      else match rename current move.newAlias rotation.store with
        | none => (rotation, some (.other "FileNotFoundError"))
        | some store =>
          finaliseMoves (index + 1) moves { rotation with
            store := store
            finalised := move.objectId :: rotation.finalised }

def verifyMoves (sha256 : Bytes → Bytes) (hashes : List (String × Bytes)) (store : Store) :
    Nat → List AliasMove → Option AliasFault
  | _, [] => none
  | index, move :: moves =>
    if fails (.verify index) then some (.other "OSError")
    else match store move.newAlias with
      | none => some (.rotation "rotation verification lost a destination object")
      | some contents =>
        if hashes.lookup move.objectId ≠ some (sha256 contents) then
          some (.rotation "rotation verification changed object bytes")
        else verifyMoves sha256 hashes store (index + 1) moves

/-- Where the object of a move is. -/
def Rotation.current (rotation : Rotation) (move : AliasMove) : Option String :=
  if move.objectId ∈ rotation.finalised then some move.newAlias
  else rotation.staged.lookup move.objectId

/-- A move is undone, in the store and the errors of the moves after it. -/
def rollbackMove (refuses : Nat → Bool) (rotation : Rotation) (index : Nat) (move : AliasMove)
    (state : Store × List String) : Store × List String :=
  match rotation.current move with
  | none => state
  | some current =>
    if (state.1 current).isNone then state
    else if refuses index then (state.1, state.2 ++ ["OSError"])
    else match rename current move.oldAlias state.1 with
      | none => (state.1, state.2 ++ ["FileNotFoundError"])
      | some store => (store, state.2)

/-- The moves from an index on are undone, the last one first. -/
def rollbackMoves (refuses : Nat → Bool) (rotation : Rotation) :
    Nat → List AliasMove → Store × List String → Store × List String
  | _, [], state => state
  | index, move :: moves, state =>
    rollbackMove refuses rotation index move (rollbackMoves refuses rotation (index + 1) moves state)

/-- What is tried: the store and the names after it, and what was raised. -/
def tryMoves (sha256 : Bytes → Bytes) (hashes : List (String × Bytes)) (store : Store)
    (moves : List AliasMove) : Rotation × Option AliasFault :=
  match stageMoves temporary fails 0 moves ⟨store, [], []⟩ with
  | (rotation, some fault) => (rotation, some fault)
  | (rotation, none) =>
    match finaliseMoves fails 0 moves rotation with
    | (rotation, some fault) => (rotation, some fault)
    | (rotation, none) => (rotation, verifyMoves fails sha256 hashes rotation.store 0 moves)

/-- How a rotation ends. -/
inductive RotationOutcome where
  | completed
  | raised (fault : AliasFault)
  | incomplete (errors : List String)
  deriving DecidableEq

/-- What is raised after a rollback. -/
def reported : AliasFault → AliasFault
  | .rotation message => .rotation message
  | .other message => .rotation ("rotation failed and was rolled back: " ++ message)

/-- `apply_alias_moves_atomically`: the outcome and the store. -/
def applyAliasMovesAtomically (refuses : Nat → Bool) (sha256 : Bytes → Bytes) (store : Store)
    (moves : List AliasMove) : RotationOutcome × Store :=
  match preflightMoves sha256 store moves with
  | .error fault => (.raised fault, store)
  | .ok hashes =>
    match tryMoves temporary fails sha256 hashes store moves with
    | (rotation, none) => (.completed, rotation.store)
    | (rotation, some fault) =>
      match rollbackMoves refuses rotation 0 moves (rotation.store, []) with
      | (store, []) => (.raised (reported fault), store)
      | (store, errors) => (.incomplete errors, store)

end Steps

/-! ## Accepted moves -/

/-- What the checks accept: distinct old and new aliases, of objects that are there, that are free or among
the old ones. -/
structure Accepted (sha256 : Bytes → Bytes) (store : Store) (moves : List AliasMove)
    (hashes : List (String × Bytes)) : Prop where
  olds : (moves.map oldAlias).Nodup
  news : (moves.map newAlias).Nodup
  sources : ∀ move ∈ moves, ∃ contents, store move.oldAlias = some contents
  free : ∀ move ∈ moves, move.newAlias ∉ moves.map oldAlias → store move.newAlias = none
  hashes : hashes = ofEntries (moves.map fun move =>
    (move.objectId, sha256 ((store move.oldAlias).getD [])))

variable {sha256 : Bytes → Bytes} {store : Store}

theorem safeLocator_eq_ok {value result : String} (passed : safeLocator value = .ok result) :
    result = value := by
  unfold safeLocator at passed
  obtain ⟨_, -, passed⟩ := bind_eq_ok passed
  obtain ⟨_, -, passed⟩ := bind_eq_ok passed
  obtain ⟨_, -, passed⟩ := bind_eq_ok passed
  cases passed
  rfl

theorem checkMoves_eq_ok {moves done : List AliasMove} {olds : List String}
    {hashes : List (String × Bytes)}
    (oldsBefore : (done.map oldAlias).Nodup) (newsBefore : (done.map newAlias).Nodup)
    (sources : ∀ move ∈ done, ∃ contents, store move.oldAlias = some contents)
    (passed : checkMoves sha256 store (done.map oldAlias) (done.map newAlias)
      (ofEntries (done.map fun move =>
        (move.objectId, sha256 ((store move.oldAlias).getD [])))) moves = .ok (olds, hashes)) :
    olds = (done ++ moves).map oldAlias ∧ ((done ++ moves).map oldAlias).Nodup ∧
      ((done ++ moves).map newAlias).Nodup ∧
      (∀ move ∈ done ++ moves, ∃ contents, store move.oldAlias = some contents) ∧
      hashes = ofEntries ((done ++ moves).map fun move =>
        (move.objectId, sha256 ((store move.oldAlias).getD []))) := by
  induction moves generalizing done with
  | nil =>
    cases passed
    rw [append_nil]
    exact ⟨rfl, oldsBefore, newsBefore, sources, rfl⟩
  | cons move moves ih =>
    unfold checkMoves at passed
    obtain ⟨old, isOld, passed⟩ := bind_eq_ok passed
    obtain ⟨new, isNew, passed⟩ := bind_eq_ok passed
    obtain ⟨_, freshOld, passed⟩ := bind_eq_ok passed
    obtain ⟨_, freshNew, passed⟩ := bind_eq_ok passed
    cases safeLocator_eq_ok isOld
    cases safeLocator_eq_ok isNew
    split at passed
    · cases passed
    · rename_i contents found
      rw [append_cons]
      have snoc : ∀ {β : Type} (f : AliasMove → β), (done ++ [move]).map f = done.map f ++ [f move] :=
        fun f => map_append
      refine ih ?_ ?_ ?_ ?_
      · rw [snoc]
        exact List.nodup_append_comm.mp (oldsBefore.cons (raiseIf_eq_ok freshOld))
      · rw [snoc]
        exact List.nodup_append_comm.mp (newsBefore.cons (raiseIf_eq_ok freshNew))
      · intro other member
        rcases mem_append.mp member with before | here
        · exact sources other before
        · rw [mem_singleton.mp here]
          exact ⟨contents, found⟩
      · rw [snoc, snoc, snoc, ofEntries_snoc, found]
        exact passed

theorem checkDestinations_eq_ok {olds : List String} {moves : List AliasMove}
    (passed : checkDestinations store olds moves = .ok ()) :
    ∀ move ∈ moves, move.newAlias ∉ olds → store move.newAlias = none := by
  induction moves with
  | nil => exact forall_mem_nil _
  | cons move moves ih =>
    unfold checkDestinations at passed
    obtain ⟨_, free, passed⟩ := bind_eq_ok passed
    refine forall_mem_cons.mpr ⟨fun absent => ?_, ih passed⟩
    have none := not_and.mp (raiseIf_eq_ok free) absent
    exact Option.not_isSome_iff_eq_none.mp none

theorem preflight_accepted {moves : List AliasMove} {hashes : List (String × Bytes)}
    (passed : preflightMoves sha256 store moves = .ok hashes) :
    Accepted sha256 store moves hashes := by
  unfold preflightMoves at passed
  obtain ⟨⟨olds, _⟩, checked, passed⟩ := bind_eq_ok passed
  obtain ⟨_, free, passed⟩ := bind_eq_ok passed
  cases passed
  obtain ⟨rfl, distinct, distinct', sources, entries⟩ := @checkMoves_eq_ok sha256 store moves [] _ _
    nodup_nil nodup_nil (forall_mem_nil _) checked
  exact ⟨distinct, distinct', sources, checkDestinations_eq_ok free, entries⟩

/-! ## Where the objects are -/

/-- Names of a fresh token: they differ, and none is an alias of the moves. -/
structure Fresh (temporary : Nat → String) (moves : List AliasMove) : Prop where
  distinct : ∀ i j, temporary i = temporary j → i = j
  olds : ∀ i, ∀ move ∈ moves, temporary i ≠ move.oldAlias
  news : ∀ i, ∀ move ∈ moves, temporary i ≠ move.newAlias

theorem Fresh.subset {temporary : Nat → String} {moves others : List AliasMove}
    (fresh : Fresh temporary moves) (subset : others ⊆ moves) : Fresh temporary others where
  distinct := fresh.distinct
  olds := fun i move member => fresh.olds i move (subset member)
  news := fun i move member => fresh.news i move (subset member)

/-- No alias of the moves is a temporary name of a token. -/
def TokenFresh (token : String) (moves : List AliasMove) : Prop :=
  ∀ i, ∀ move ∈ moves, temporaryName token i ≠ move.oldAlias ∧ temporaryName token i ≠ move.newAlias

theorem TokenFresh.fresh {token : String} {moves : List AliasMove} (fresh : TokenFresh token moves) :
    Fresh (temporaryName token) moves where
  distinct := fun i j same => by
    have letters := congrArg toList same
    unfold temporaryName at letters
    simp only [toList_append, toList_ofList] at letters
    exact hexadecimal_inj (append_cancel_left letters)
  olds := fun i move member => (fresh i move member).1
  news := fun i move member => (fresh i move member).2

/-- Aliases that start with another letter are no temporary names. -/
theorem tokenFresh_of_head {token : String} {moves : List AliasMove}
    (apart : ∀ move ∈ moves, move.oldAlias.toList.head? ≠ some 'K' ∧
      move.newAlias.toList.head? ≠ some 'K') : TokenFresh token moves := by
  intro i move member
  obtain ⟨old, new⟩ := apart move member
  have head := temporaryName_head token i
  exact ⟨fun same => old (same ▸ head), fun same => new (same ▸ head)⟩

section Places

variable (temporary : Nat → String) (fails : RotationStep → Bool)

/-- The old aliases of moves that are staged, and where their objects are when the first of them are
installed. -/
def located (installed : Nat) (moves : List AliasMove) : List (String × String) :=
  moves.mapIdx fun index move =>
    (move.oldAlias, if index < installed then move.newAlias else temporary index)

/-- The object ids of moves with their temporary names. -/
def temporaries (moves : List AliasMove) : List (String × String) :=
  moves.mapIdx fun index move => (move.objectId, temporary index)

/-- How many moves are staged, from an index on. -/
def stagedCount (store : Store) : Nat → List AliasMove → Nat
  | _, [] => 0
  | index, _ :: moves =>
    if (store (temporary index)).isSome ∨ fails (.stage index) then 0
    else stagedCount store (index + 1) moves + 1

/-- How many moves are installed, from an index on. -/
def installedCount : Nat → List AliasMove → Nat
  | _, [] => 0
  | index, _ :: moves =>
    if fails (.install index) then 0 else installedCount (index + 1) moves + 1

variable {temporary} {fails} {moves done : List AliasMove} {move : AliasMove}
  {installed : Nat}

theorem located_snoc : located temporary installed (done ++ [move]) =
    located temporary installed done ++ [(move.oldAlias,
      if done.length < installed then move.newAlias else temporary done.length)] :=
  List.mapIdx_concat

theorem temporaries_snoc : temporaries temporary (done ++ [move]) =
    temporaries temporary done ++ [(move.objectId, temporary done.length)] :=
  List.mapIdx_concat

@[simp]
theorem located_fst : (located temporary installed moves).map fst =
    moves.map oldAlias := by
  induction moves using reverseRecOn with
  | nil => rfl
  | append_singleton moves move ih =>
    rw [located_snoc, map_append, ih, map_append]
    rfl

@[simp]
theorem temporaries_fst : (temporaries temporary moves).map fst =
    moves.map objectId := by
  induction moves using reverseRecOn with
  | nil => rfl
  | append_singleton moves move ih =>
    rw [temporaries_snoc, map_append, ih, map_append]
    rfl

/-- An object is under the new alias of an installed move, or under a temporary name. -/
theorem mem_located_snd {name : String}
    (member : name ∈ (located temporary installed moves).map snd) :
    (∃ index, index < moves.length ∧ ¬ index < installed ∧ name = temporary index) ∨
      ∃ index, ∃ small : index < moves.length, index < installed ∧ name = moves[index].newAlias := by
  obtain ⟨pair, isPair, rfl⟩ := mem_map.mp member
  obtain ⟨index, small, rfl⟩ := mem_mapIdx.mp isPair
  by_cases early : index < installed
  · exact .inr ⟨index, small, early, if_pos early⟩
  · exact .inl ⟨index, small, early, if_neg early⟩

theorem located_distinct (installed : Nat) (fresh : Fresh temporary moves)
    (news : (moves.map newAlias).Nodup) :
    ((located temporary installed moves).map snd).Nodup := by
  refine List.pairwise_iff_getElem.mpr fun i j first second less => ?_
  have bound : i < moves.length := by simpa [located] using first
  have bound' : j < moves.length := by simpa [located] using second
  have apart : moves[i].newAlias ≠ moves[j].newAlias := by
    have pairwise := List.pairwise_iff_getElem.mp news i j (by simpa using bound) (by simpa using bound')
      less
    simpa using pairwise
  have temporaryApart : temporary i ≠ temporary j := fun same =>
    absurd (fresh.distinct i j same) (Nat.ne_of_lt less)
  have first' := fresh.news j moves[i] (getElem_mem bound)
  simp only [located, getElem_map, List.getElem_mapIdx]
  by_cases early : i < installed
  · rw [if_pos early]
    by_cases late : j < installed
    · rwa [if_pos late]
    · rw [if_neg late]
      exact Ne.symm first'
  · rw [if_neg early, if_neg fun late => early (Nat.lt_trans less late)]
    exact temporaryApart

theorem stagedCount_spec (temporary : Nat → String) (fails : RotationStep → Bool) (store : Store)
    (index : Nat) (moves : List AliasMove) :
    stagedCount temporary fails store index moves ≤ moves.length ∧
      ∀ i < stagedCount temporary fails store index moves, store (temporary (index + i)) = none := by
  induction moves generalizing index with
  | nil => exact ⟨Nat.le_refl 0, fun i impossible => absurd impossible (Nat.not_lt_zero i)⟩
  | cons move moves ih =>
    obtain ⟨length, free⟩ := ih (index + 1)
    unfold stagedCount
    split
    · exact ⟨Nat.zero_le _, fun i impossible => absurd impossible (Nat.not_lt_zero i)⟩
    · rename_i passes
      refine ⟨Nat.succ_le_succ length, fun i small => ?_⟩
      cases i with
      | zero => exact Option.not_isSome_iff_eq_none.mp (not_or.mp passes).1
      | succ i =>
        have later := free i (Nat.lt_of_succ_lt_succ small)
        rwa [Nat.add_right_comm] at later

/-- What staging does: the moves that are staged have their objects under temporary names. -/
theorem stageMoves_spec (fresh : Fresh temporary (done ++ moves))
    (olds : ((done ++ moves).map oldAlias).Nodup) (news : ((done ++ moves).map newAlias).Nodup)
    (sources : ∀ move ∈ done ++ moves, ∃ contents, store move.oldAlias = some contents) :
    ∃ fault, stageMoves temporary fails done.length moves
        ⟨relocated store (located temporary 0 done), ofEntries (temporaries temporary done), []⟩ =
      (⟨relocated store (located temporary 0
          (done ++ moves.take (stagedCount temporary fails store done.length moves))),
        ofEntries (temporaries temporary
          (done ++ moves.take (stagedCount temporary fails store done.length moves))), []⟩, fault) ∧
      (fault = none ↔ stagedCount temporary fails store done.length moves = moves.length) := by
  induction moves generalizing done with
  | nil =>
    refine ⟨none, ?_, ⟨fun _ => rfl, fun _ => rfl⟩⟩
    rw [List.take_nil, append_nil]
    rfl
  | cons move moves ih =>
    have member : move ∈ done ++ move :: moves := mem_append_right _ mem_cons_self
    have notLocated : temporary done.length ∉ (located temporary 0 done).map snd := by
      intro among
      rcases mem_located_snd among with ⟨i, small, -, same⟩ | ⟨i, _, impossible, -⟩
      · exact absurd (fresh.distinct _ _ same) (Nat.ne_of_gt small)
      · exact Nat.not_lt_zero i impossible
    have notOld : temporary done.length ∉ done.map oldAlias := by
      intro among
      obtain ⟨other, isOther, same⟩ := mem_map.mp among
      exact fresh.olds _ other (mem_append_left _ isOther) same.symm
    have unchanged : relocated store (located temporary 0 done) (temporary done.length) =
        store (temporary done.length) := by
      rw [relocated_of_not_mem notLocated, located_fst, if_neg notOld]
    unfold stageMoves stagedCount
    dsimp only
    by_cases present : (store (temporary done.length)).isSome
    · have collision : (relocated store (located temporary 0 done)
          (temporary done.length)).isSome := by rwa [unchanged]
      rw [if_pos collision, if_pos (.inl present), List.take_zero, append_nil]
      exact ⟨_, rfl, by simp⟩
    · have free : ¬ (relocated store (located temporary 0 done)
          (temporary done.length)).isSome := by rwa [unchanged]
      by_cases failed : fails (.stage done.length) = true
      · rw [if_neg free, if_pos failed, if_pos (.inr failed), List.take_zero, append_nil]
        exact ⟨_, rfl, by simp⟩
      · obtain ⟨contents, found⟩ := sources move member
        have stays : move.oldAlias ∉ (located temporary 0 done).map fst := by
          rw [located_fst]
          exact new_of_nodup_map olds
        have apart : move.oldAlias ∉ (located temporary 0 done).map snd := by
          intro among
          rcases mem_located_snd among with ⟨i, -, -, same⟩ | ⟨i, _, impossible, -⟩
          · exact fresh.olds i move member same.symm
          · exact Nat.not_lt_zero i impossible
        have next := @ih (done ++ [move])
        rw [length_append, length_singleton, ← append_cons, located_snoc,
          if_neg (Nat.not_lt_zero _), temporaries_snoc, ofEntries_snoc] at next
        have distinct : ((located temporary 0 done ++ [(move.oldAlias,
            temporary done.length)]).map snd).Nodup := by
          have same := @located_snoc temporary done move 0
          rw [if_neg (Nat.not_lt_zero _)] at same
          rw [← same]
          have prefixed : (done ++ [move]).Sublist (done ++ move :: moves) := by
            rw [append_cons done move moves]
            exact List.sublist_append_left _ _
          exact located_distinct 0 (fresh.subset prefixed.subset) (news.sublist (prefixed.map _))
        have renamed := rename_relocated_snoc distinct found stays apart
        obtain ⟨fault, ran, complete⟩ := next fresh olds news sources
        rw [if_neg free, if_neg failed, if_neg (not_or.mpr ⟨present, failed⟩), renamed]
        refine ⟨fault, ?_, ?_⟩
        · rw [List.take_succ_cons, append_cons done move]
          exact ran
        · rw [complete, length_cons, Nat.add_right_cancel_iff]

/-- The old aliases of moves with their temporary names from an index on. -/
def waiting (temporary : Nat → String) (index : Nat) (moves : List AliasMove) : List (String × String) :=
  moves.mapIdx fun offset move => (move.oldAlias, temporary (offset + index))

/-- Where the objects are before and after a move is installed. -/
theorem located_middle {extra : Nat} (small : extra ≤ 1) :
    located temporary (done.length + extra) (done ++ move :: moves) =
      done.map (fun move => (move.oldAlias, move.newAlias)) ++
        (move.oldAlias, if extra = 0 then temporary done.length else move.newAlias) ::
          waiting temporary (done.length + 1) moves := by
  unfold located waiting
  rw [List.mapIdx_append, List.mapIdx_cons]
  refine congrArg₂ (· ++ ·) ?_ (congrArg₂ List.cons ?_ ?_)
  · refine List.ext_getElem (by simp) fun i first second => ?_
    have early : i < done.length + extra := by
      have bound : i < done.length := by simpa using first
      omega
    simp [early]
  · by_cases none : extra = 0
    · simp [none]
    · simp [none, Nat.pos_of_ne_zero none]
  · refine List.ext_getElem (by simp) fun i first second => ?_
    have late : ¬ i + (done.length + 1) < done.length + extra := by omega
    have sum : i + 1 + done.length = i + (done.length + 1) := by omega
    simp [late, sum]

/-- One object is installed. -/
theorem rename_located (fresh : Fresh temporary (done ++ move :: moves))
    (news : ((done ++ move :: moves).map newAlias).Nodup)
    (found : ∃ contents, store move.oldAlias = some contents)
    (free : store (temporary done.length) = none) :
    rename (temporary done.length) move.newAlias
        (relocated store (located temporary done.length (done ++ move :: moves))) =
      some (relocated store (located temporary (done.length + 1) (done ++ move :: moves))) := by
  obtain ⟨contents, found⟩ := found
  have before := @located_middle temporary moves done move 0 (Nat.zero_le 1)
  have after := @located_middle temporary moves done move 1 (Nat.le_refl 1)
  rw [Nat.add_zero, if_pos rfl] at before
  rw [if_neg Nat.one_ne_zero] at after
  have distinct := located_distinct done.length fresh news
  have distinct' := located_distinct (done.length + 1) fresh news
  rw [before] at distinct ⊢
  rw [after] at distinct' ⊢
  -- The pair of the move is brought to the end.
  have last : ∀ name : String, (done.map (fun move => (move.oldAlias, move.newAlias)) ++
      (move.oldAlias, name) :: waiting temporary (done.length + 1) moves).Perm
        ((done.map (fun move => (move.oldAlias, move.newAlias)) ++
          waiting temporary (done.length + 1) moves) ++ [(move.oldAlias, name)]) :=
    fun name => List.perm_middle.trans (List.perm_append_singleton _ _).symm
  rw [relocated_perm (last _) distinct, relocated_perm (last _) distinct']
  exact rename_relocated_further (((last _).map _).nodup_iff.mp distinct) found
    (((last _).map _).nodup_iff.mp distinct') fun _ => free

theorem temporaries_lookup (distinct : ((done ++ move :: moves).map objectId).Nodup) :
    (ofEntries (temporaries temporary (done ++ move :: moves))).lookup move.objectId =
      some (temporary done.length) := by
  rw [lookup_ofEntries]
  refine Table.lastItem_of_mem (by rwa [temporaries_fst]) ?_
  refine mem_mapIdx.mpr ⟨done.length, by simp, ?_⟩
  simp

/-- What installing does when the object ids differ: the moves that are installed have their objects
under new aliases. -/
theorem finaliseMoves_spec (fresh : Fresh temporary (done ++ moves))
    (news : ((done ++ moves).map newAlias).Nodup) (ids : ((done ++ moves).map objectId).Nodup)
    (sources : ∀ move ∈ done ++ moves, ∃ contents, store move.oldAlias = some contents)
    (free : ∀ i < (done ++ moves).length, store (temporary i) = none) :
    ∃ fault, finaliseMoves fails done.length moves
        ⟨relocated store (located temporary done.length (done ++ moves)),
          ofEntries (temporaries temporary (done ++ moves)),
          (done.map objectId).reverse⟩ =
      (⟨relocated store (located temporary
          (done.length + installedCount fails done.length moves) (done ++ moves)),
        ofEntries (temporaries temporary (done ++ moves)),
        ((done ++ moves.take (installedCount fails done.length moves)).map
          objectId).reverse⟩, fault) ∧
      (fault = none ↔ installedCount fails done.length moves = moves.length) := by
  induction moves generalizing done with
  | nil =>
    refine ⟨none, ?_, ⟨fun _ => rfl, fun _ => rfl⟩⟩
    unfold finaliseMoves installedCount
    rw [List.take_nil, Nat.add_zero, append_nil]
  | cons move moves ih =>
    unfold finaliseMoves installedCount
    dsimp only
    rw [temporaries_lookup ids]
    dsimp only
    by_cases failed : fails (.install done.length) = true
    · rw [if_pos failed, if_pos failed, Nat.add_zero, List.take_zero, append_nil]
      exact ⟨_, rfl, by simp⟩
    · have small : done.length < (done ++ move :: moves).length := by simp
      have renamed := rename_located fresh news
        (sources move (mem_append_right _ mem_cons_self)) (free done.length small)
      have longer : (done ++ [move]).length = done.length + 1 := length_append
      have finalised : ((done ++ [move]).map objectId).reverse =
          move.objectId :: (done.map objectId).reverse := by
        rw [map_append, reverse_append]
        rfl
      have next := @ih (done ++ [move])
      rw [longer, finalised, ← append_cons] at next
      obtain ⟨fault, ran, complete⟩ := next fresh news ids sources free
      rw [if_neg failed, if_neg failed, renamed]
      refine ⟨fault, ?_, ?_⟩
      · have total : done.length + (installedCount fails (done.length + 1) moves + 1) =
            done.length + 1 + installedCount fails (done.length + 1) moves := by omega
        rw [total, List.take_succ_cons,
          append_cons done move (moves.take (installedCount fails (done.length + 1) moves))]
        exact ran
      · rw [complete, length_cons, Nat.add_right_cancel_iff]

end Places

end Koschei.ObjectStore
