import Koschei.ObjectStore.Aliases

/-!
# Atomicity of a rotation

A rotation of aliases that fails undoes what it did, the last move first. The
store is as before when the objects that were staged are the only ones of their
ids, and when no alias that was installed is the old alias of a later move: undoing
the later move puts its object in place of the one that was installed there.
-/

namespace Koschei.ObjectStore

open Lib
open AliasMove (newAlias objectId oldAlias)
open List (length_take_of_le mem_take_iff_getElem take_length)

/-- The objects are under their new aliases, and nothing else changed. -/
structure Moved (before : Store) (moves : List AliasMove) (after : Store) : Prop where
  moved : ∀ move ∈ moves, after move.newAlias = before move.oldAlias
  left : ∀ move ∈ moves, move.oldAlias ∉ moves.map newAlias → after move.oldAlias = none
  kept : ∀ name, name ∉ moves.map oldAlias → name ∉ moves.map newAlias →
    after name = before name

/-- A rotation moved the objects, or left the store as it was, or reports that it could do neither. -/
def Atomic (before : Store) (moves : List AliasMove) : RotationOutcome × Store → Prop
  | (.completed, after) => Moved before moves after
  | (.raised _, after) => after = before
  | (.incomplete _, _) => True

section Atomicity

variable (temporary : Nat → String) (fails : RotationStep → Bool) (store : Store)
  (moves : List AliasMove)

/-- A step after the staging fails. -/
def Interrupted : Prop :=
  installedCount fails 0 moves < moves.length ∨ ∃ i < moves.length, fails (.verify i) = true

/-- The moves that can be undone where they fail: no object id of a move that is staged is the one of another
move, and when a later step fails, no alias that is installed is the old alias of a later move. -/
structure Undoable : Prop where
  identified : ∀ i < stagedCount temporary fails store 0 moves, ∀ j (small : j < moves.length)
    (small' : i < moves.length), i ≠ j → moves[i].objectId ≠ moves[j].objectId
  ordered : stagedCount temporary fails store 0 moves = moves.length → Interrupted fails moves →
    ∀ i < installedCount fails 0 moves, ∀ j (small : j < moves.length) (less : i < j),
      moves[j].oldAlias ≠ moves[i].newAlias

variable {temporary} {fails} {store} {moves} {done : List AliasMove} {move : AliasMove}
  {installed : Nat}

/-! ## What undoing does -/

section Undoing

variable {refuses : Nat → Bool} {rotation : Rotation} {state : Store × List String} {index : Nat}

theorem rollbackMoves_append (index : Nat) (done moves : List AliasMove) (state : Store × List String) :
    rollbackMoves refuses rotation index (done ++ moves) state =
      rollbackMoves refuses rotation index done
        (rollbackMoves refuses rotation (index + done.length) moves state) := by
  induction done generalizing index with
  | nil => rfl
  | cons move done ih =>
    rw [cons_append]
    unfold rollbackMoves
    rw [ih (index + 1), length_cons, Nat.add_assoc index 1, Nat.add_comm 1]

/-- Nothing is undone for a move that is neither staged nor installed. -/
theorem rollbackMoves_of_none (absent : ∀ move ∈ moves, rotation.current move = none) :
    rollbackMoves refuses rotation index moves state = state := by
  induction moves generalizing index with
  | nil => rfl
  | cons move moves ih =>
    obtain ⟨here, later⟩ := forall_mem_cons.mp absent
    unfold rollbackMoves
    rw [ih later]
    unfold rollbackMove
    rw [here]

theorem rollbackMoves_take {k : Nat} (absent : ∀ move ∈ moves.drop k, rotation.current move = none) :
    rollbackMoves refuses rotation 0 moves state =
      rollbackMoves refuses rotation 0 (moves.take k) state := by
  have whole := @rollbackMoves_append refuses rotation 0 (moves.take k) (moves.drop k) state
  rwa [take_append_drop, rollbackMoves_of_none absent] at whole

theorem rollbackMove_errors (clear : (rollbackMove refuses rotation index move state).2 = []) :
    state.2 = [] := by
  unfold rollbackMove at clear
  repeat' split at clear
  · exact clear
  · exact clear
  · exact absurd clear (List.append_ne_nil_of_right_ne_nil _ nofun)
  · exact absurd clear (List.append_ne_nil_of_right_ne_nil _ nofun)
  · exact clear

theorem rollbackMoves_errors (clear : (rollbackMoves refuses rotation index moves state).2 = []) :
    state.2 = [] := by
  induction moves generalizing index with
  | nil => exact clear
  | cons move moves ih => exact ih (rollbackMove_errors clear)

variable {name current : String}

/-- A name that is neither where the object is nor its old alias keeps its contents. -/
theorem rollbackMove_other (apart : rotation.current move ≠ some name)
    (apart' : name ≠ move.oldAlias) :
    (rollbackMove refuses rotation index move state).1 name = state.1 name := by
  unfold rollbackMove
  split
  · rfl
  · rename_i current found
    have other : name ≠ current := fun same => apart (found.trans (congrArg some same.symm))
    repeat' split
    · rfl
    · rfl
    · rfl
    · exact rename_other ‹_› other apart'

/-- A free name that is not the old alias of a move is still free when it is undone. -/
theorem rollbackMove_absent (absent : state.1 name = none) (apart : name ≠ move.oldAlias) :
    (rollbackMove refuses rotation index move state).1 name = none := by
  by_cases here : rotation.current move = some name
  · unfold rollbackMove
    rw [here]
    dsimp only
    rw [absent]
    exact absent
  · rw [rollbackMove_other here apart, absent]

theorem rollbackMoves_absent (absent : state.1 name = none)
    (apart : ∀ move ∈ moves, name ≠ move.oldAlias) :
    (rollbackMoves refuses rotation index moves state).1 name = none := by
  induction moves generalizing index with
  | nil => exact absent
  | cons move moves ih =>
    obtain ⟨here, later⟩ := forall_mem_cons.mp apart
    exact rollbackMove_absent (ih later) here

/-- An object is not where it was when its move is undone and no rename is refused. -/
theorem rollbackMove_current (found : rotation.current move = some current)
    (apart : current ≠ move.oldAlias) :
    (rollbackMove (fun _ => false) rotation index move state).1 current = none := by
  unfold rollbackMove
  rw [found]
  dsimp only
  cases here : state.1 current with
  | none => exact here
  | some contents =>
    have renamed := @rename_of_some String Bytes _ state.1 current move.oldAlias contents here
    rw [renamed]
    exact rename_source renamed apart

/-- Nothing is undone for an object that is not where it was put. -/
theorem rollbackMove_of_absent (found : rotation.current move = some current)
    (absent : state.1 current = none) : rollbackMove refuses rotation index move state = state := by
  unfold rollbackMove
  rw [found]
  dsimp only
  rw [absent]
  rfl

/-- When no rename is refused, an object is not where it was when the moves are undone, when that is not the
old alias of its move or of an earlier one. -/
theorem rollbackMoves_current {before rest : List AliasMove} {current : String}
    (found : rotation.current move = some current) (apart : current ≠ move.oldAlias)
    (others : ∀ other ∈ before, current ≠ other.oldAlias) :
    (rollbackMoves (fun _ => false) rotation index (before ++ move :: rest) state).1 current = none := by
  rw [rollbackMoves_append]
  exact rollbackMoves_absent (rollbackMove_current found apart) others

/-- When no rename is refused and the object of a move is taken for the one of a later move, it is not put
back. -/
theorem rollbackMoves_shared {before middle after : List AliasMove} {later : AliasMove}
    {current : String} (found : rotation.current move = some current)
    (shared : rotation.current later = some current)
    (apart : ∀ other ∈ before ++ move :: (middle ++ later :: after), current ≠ other.oldAlias)
    (olds : ((before ++ move :: (middle ++ later :: after)).map oldAlias).Nodup)
    (gone : state.1 move.oldAlias = none) :
    (rollbackMoves (fun _ => false) rotation index (before ++ move :: (middle ++ later :: after))
      state).1 move.oldAlias = none := by
  have earlier : ∀ other ∈ before, move.oldAlias ≠ other.oldAlias := fun other member same =>
    new_of_nodup_map olds (mem_map.mpr ⟨other, member, same.symm⟩)
  have tail : move.oldAlias ∉ (middle ++ later :: after).map oldAlias := by
    rw [map_append, map_cons] at olds
    exact (nodup_cons.mp olds.of_append_right).1
  have isLater : later ∈ before ++ move :: (middle ++ later :: after) := by simp
  have among : ∀ other ∈ middle, other ∈ before ++ move :: (middle ++ later :: after) :=
    fun other member => by simp [member]
  rw [rollbackMoves_append]
  refine rollbackMoves_absent ?_ earlier
  unfold rollbackMoves
  rw [rollbackMove_of_absent found]
  · exact rollbackMoves_absent gone fun other member same =>
      tail (mem_map.mpr ⟨other, member, same.symm⟩)
  · exact rollbackMoves_current shared (apart later isLater) fun other member =>
      apart other (among other member)

/-- No error is reported when no rename is refused. -/
theorem rollbackMoves_unrefused (clear : state.2 = []) :
    (rollbackMoves (fun _ => false) rotation index moves state).2 = [] := by
  induction moves generalizing index with
  | nil => exact clear
  | cons move moves ih =>
    have later := @ih (index + 1)
    unfold rollbackMoves rollbackMove
    split
    · exact later
    · rename_i current found
      cases here : (rollbackMoves (fun _ => false) rotation (index + 1) moves state).1 current with
      | none => exact later
      | some contents =>
        rw [rename_of_some here]
        exact later

/-- The rollback restores the store when every object is where the rotation put it and no alias that was
installed is the old alias of a later move, unless a rename is refused. -/
theorem rollbackMoves_restores (fresh : Fresh temporary done)
    (olds : (done.map oldAlias).Nodup) (news : (done.map newAlias).Nodup)
    (sources : ∀ move ∈ done, ∃ contents, store move.oldAlias = some contents)
    (places : ∀ i (small : i < done.length), rotation.current done[i] =
      some (if i < installed then done[i].newAlias else temporary i))
    (ordered : ∀ i < installed, ∀ j (small : j < done.length) (less : i < j),
      done[j].oldAlias ≠ done[i].newAlias)
    (free : ∀ i < done.length, store (temporary i) = none)
    (vacant : ∀ i < installed, ∀ small : i < done.length,
      (∀ j (early : j ≤ i), done[j].oldAlias ≠ done[i].newAlias) → store done[i].newAlias = none)
    {errors : List String}
    (clear : (rollbackMoves refuses rotation 0 done
      (relocated store (located temporary installed done), errors)).2 = []) :
    (rollbackMoves refuses rotation 0 done
      (relocated store (located temporary installed done), errors)).1 = store := by
  induction done using reverseRecOn with
  | nil => rfl
  | append_singleton done move ih =>
    have whole : (done ++ [move]).length = done.length + 1 := length_append
    have here : done.length < (done ++ [move]).length := by omega
    have isMove : (done ++ [move])[done.length] = move := by simp
    have isEarlier : ∀ i (small : i < done.length), (done ++ [move])[i] = done[i] := fun i small =>
      List.getElem_append_left small
    have last := places done.length here
    rw [isMove] at last
    obtain ⟨contents, found⟩ := sources move (mem_append_right _ (mem_singleton_self _))
    have distinct := located_distinct installed fresh news
    rw [located_snoc] at distinct
    have isOld : move.oldAlias ∉ done.map oldAlias := new_of_nodup_map olds
    have stays : move.oldAlias ∉ (located temporary installed done).map fst := by
      rwa [located_fst]
    have apart : move.oldAlias ∉ (located temporary installed done).map snd := by
      intro among
      rcases mem_located_snd among with ⟨i, -, -, same⟩ | ⟨i, small, early, same⟩
      · exact fresh.olds i move (mem_append_right _ (mem_singleton_self _)) same.symm
      · have later := ordered i early done.length here small
        rw [isMove, isEarlier i small] at later
        exact later same
    have target : (if done.length < installed then move.newAlias else temporary done.length) ≠
        move.oldAlias → (if done.length < installed then move.newAlias else temporary done.length) ∉
          (located temporary installed done).map fst →
        store (if done.length < installed then move.newAlias else temporary done.length) = none := by
      rw [located_fst]
      split
      · rename_i early
        intro other absent
        have vacant := vacant done.length early here
        rw [isMove] at vacant
        refine vacant fun j least => ?_
        rcases Nat.lt_or_eq_of_le least with less | same
        · rw [isEarlier j less]
          exact fun same => absent (mem_map.mpr ⟨done[j], getElem_mem less, same⟩)
        · subst same
          rw [isMove]
          exact Ne.symm other
      · exact fun _ _ => free done.length here
    have renamed := rename_relocated_back distinct found stays apart target
    have present : (relocated store (located temporary installed (done ++ [move]))
        (if done.length < installed then move.newAlias else temporary done.length)).isNone ≠ true := by
      rw [located_snoc, relocated_snoc distinct, if_pos rfl, found]
      exact false_ne_true
    have back : (rollbackMove refuses rotation (0 + done.length) move
          (relocated store (located temporary installed (done ++ [move])), errors)).2 = [] →
        rollbackMove refuses rotation (0 + done.length) move
            (relocated store (located temporary installed (done ++ [move])), errors) =
          (relocated store (located temporary installed done), errors) := by
      unfold rollbackMove
      rw [last]
      dsimp only
      rw [if_neg present]
      split
      · exact fun clear => absurd clear (List.append_ne_nil_of_right_ne_nil _ (cons_ne_nil _ _))
      · rw [located_snoc, renamed]
        exact fun _ => rfl
    have single : ∀ state, rollbackMoves refuses rotation (0 + done.length) [move] state =
        rollbackMove refuses rotation (0 + done.length) move state := fun _ => rfl
    rw [rollbackMoves_append, single] at clear ⊢
    have step := back (rollbackMoves_errors clear)
    rw [step] at clear ⊢
    refine ih (fresh.subset (List.subset_append_left _ _)) ?_ ?_ ?_ ?_ ?_ ?_ ?_ clear
    · exact olds.sublist ((List.sublist_append_left _ _).map _)
    · exact news.sublist ((List.sublist_append_left _ _).map _)
    · exact (forall_mem_append.mp sources).1
    · intro i small
      have place := places i (by omega)
      rwa [isEarlier i small] at place
    · intro i early j small less
      have place := ordered i early j (by omega) less
      rwa [isEarlier i (by omega), isEarlier j small] at place
    · exact fun i small => free i (by omega)
    · intro i early small others
      have place := vacant i early (by omega)
      rw [isEarlier i small] at place
      refine place fun j least => ?_
      rw [isEarlier j (by omega)]
      exact others j least

end Undoing

/-! ## What the trial leaves -/

section Trial

variable {sha256 : Bytes → Bytes} {hashes : List (String × Bytes)}

/-- The verification passes when the objects are under their new aliases and no step of it fails. -/
theorem verifyMoves_eq_none {after : Store} {index : Nat}
    (verified : ∀ move ∈ moves, ∃ contents, after move.newAlias = some contents ∧
      hashes.lookup move.objectId = some (sha256 contents)) :
    verifyMoves fails sha256 hashes after index moves = none ↔
      ∀ i < moves.length, fails (.verify (index + i)) = false := by
  induction moves generalizing index with
  | nil => exact ⟨fun _ i impossible => absurd impossible (Nat.not_lt_zero i), fun _ => rfl⟩
  | cons move moves ih =>
    obtain ⟨⟨contents, found, hash⟩, later⟩ := forall_mem_cons.mp verified
    unfold verifyMoves
    by_cases failed : fails (.verify index) = true
    · rw [if_pos failed]
      refine ⟨nofun, fun passes => ?_⟩
      have first := passes 0 (Nat.succ_pos _)
      rw [Nat.add_zero, failed] at first
      cases first
    · rw [if_neg failed, found]
      dsimp only
      rw [if_neg (not_not.mpr hash), ih later]
      constructor
      · intro passes i small
        cases i with
        | zero => exact not_eq_true _ ▸ failed
        | succ i =>
          rw [Nat.add_comm i 1, ← Nat.add_assoc]
          exact passes i (Nat.lt_of_succ_lt_succ small)
      · intro passes i small
        rw [Nat.add_assoc, Nat.add_comm 1]
        exact passes (i + 1) (Nat.succ_lt_succ small)

section

variable (accepted : Accepted sha256 store moves hashes)

include accepted

theorem stageMoves_accepted (fails : RotationStep → Bool) (fresh : Fresh temporary moves) :
    ∃ fault, stageMoves temporary fails 0 moves ⟨store, [], []⟩ =
      (⟨relocated store (located temporary 0 (moves.take (stagedCount temporary fails store 0 moves))),
        ofEntries
          (temporaries temporary (moves.take (stagedCount temporary fails store 0 moves))), []⟩,
        fault) ∧
      (fault = none ↔ stagedCount temporary fails store 0 moves = moves.length) :=
  @stageMoves_spec store temporary fails moves [] fresh accepted.olds accepted.news accepted.sources

theorem tryMoves_unstaged (fresh : Fresh temporary moves)
    (partially : stagedCount temporary fails store 0 moves ≠ moves.length) :
    ∃ fault, tryMoves temporary fails sha256 hashes store moves =
      (⟨relocated store (located temporary 0 (moves.take (stagedCount temporary fails store 0 moves))),
        ofEntries
          (temporaries temporary (moves.take (stagedCount temporary fails store 0 moves))), []⟩,
        some fault) := by
  obtain ⟨fault, staged, complete⟩ := stageMoves_accepted accepted fails fresh
  unfold tryMoves
  rw [staged]
  cases fault with
  | none => exact absurd (complete.mp rfl) partially
  | some fault => exact ⟨fault, rfl⟩

omit accepted in
theorem installedCount_le (fails : RotationStep → Bool) (index : Nat) (moves : List AliasMove) :
    installedCount fails index moves ≤ moves.length := by
  induction moves generalizing index with
  | nil => exact Nat.le_refl 0
  | cons move moves ih =>
    unfold installedCount
    split
    · exact Nat.zero_le _
    · exact Nat.succ_le_succ (ih (index + 1))

omit accepted in
/-- Where the objects are when all are installed. -/
theorem mem_located {move : AliasMove} (member : move ∈ moves) :
    (move.oldAlias, move.newAlias) ∈ located temporary moves.length moves := by
  obtain ⟨i, small, rfl⟩ := mem_iff_getElem.mp member
  refine mem_mapIdx.mpr ⟨i, small, ?_⟩
  rw [if_pos small]

/-- The objects that are installed have the hashes of the originals. -/
theorem verified_of_accepted (fresh : Fresh temporary moves) (ids : (moves.map objectId).Nodup) :
    ∀ move ∈ moves, ∃ contents,
      relocated store (located temporary moves.length moves) move.newAlias = some contents ∧
        hashes.lookup move.objectId = some (sha256 contents) := by
  intro move member
  obtain ⟨contents, found⟩ := accepted.sources move member
  have here := @relocated_of_mem String Bytes _ store _
    (located_distinct moves.length fresh accepted.news) _ (mem_located member)
  refine ⟨contents, here.trans found, ?_⟩
  rw [accepted.hashes, lookup_ofEntries]
  refine Table.lastItem_of_mem ?_ ?_
  · rwa [map_map]
  · refine mem_map.mpr ⟨move, member, ?_⟩
    rw [found]
    rfl

/-- When every move is staged and the object ids differ, the objects that are installed have their new
aliases, and the trial fails when a later step does. -/
theorem tryMoves_staged (fresh : Fresh temporary moves) (ids : (moves.map objectId).Nodup)
    (wholly : stagedCount temporary fails store 0 moves = moves.length) :
    ∃ fault, tryMoves temporary fails sha256 hashes store moves =
      (⟨relocated store (located temporary (installedCount fails 0 moves) moves),
        ofEntries (temporaries temporary moves),
        ((moves.take (installedCount fails 0 moves)).map objectId).reverse⟩, fault) ∧
      (fault = none ↔ ¬ Interrupted fails moves) := by
  obtain ⟨fault, staged, complete⟩ := stageMoves_accepted accepted fails fresh
  rw [wholly, take_length] at staged
  cases complete.mpr wholly
  have free : ∀ i < moves.length, store (temporary i) = none := by
    have spec := (stagedCount_spec temporary fails store 0 moves).2
    intro i small
    have isFree := spec i (by rwa [wholly])
    rwa [Nat.zero_add] at isFree
  obtain ⟨fault, finalised, complete⟩ := @finaliseMoves_spec store temporary fails moves [] fresh
    accepted.news ids accepted.sources free
  rw [nil_append, length_nil, Nat.zero_add] at finalised
  have ran : finaliseMoves fails 0 moves ⟨relocated store (located temporary 0 moves),
      ofEntries (temporaries temporary moves), []⟩ = _ := finalised
  unfold tryMoves
  rw [staged]
  dsimp only
  rw [ran]
  cases fault with
  | some fault =>
    refine ⟨some fault, rfl, ⟨nofun, fun calm => absurd (.inl ?_) calm⟩⟩
    have most := installedCount_le fails 0 moves
    exact lt_of_le_of_ne most fun same => nomatch complete.mpr same
  | none =>
    have all : installedCount fails 0 moves = moves.length := complete.mp rfl
    refine ⟨_, rfl, ?_⟩
    dsimp only
    rw [all, verifyMoves_eq_none (verified_of_accepted accepted fresh ids)]
    unfold Interrupted
    rw [all]
    simp

end

end Trial

/-! ## When a rotation is atomic -/

section Outcome

variable {sha256 : Bytes → Bytes} {hashes : List (String × Bytes)} {rotation : Rotation}
  {refuses : Nat → Bool}

section

variable (passed : preflightMoves sha256 store moves = .ok hashes)

include passed

theorem apply_completed
    (ran : tryMoves temporary fails sha256 hashes store moves = (rotation, none)) :
    applyAliasMovesAtomically temporary fails refuses sha256 store moves =
      (.completed, rotation.store) := by
  unfold applyAliasMovesAtomically
  rw [passed]
  dsimp only
  rw [ran]

/-- A rotation that failed leaves what the rollback does, or reports that it is incomplete. -/
theorem apply_failed {fault : AliasFault}
    (ran : tryMoves temporary fails sha256 hashes store moves = (rotation, some fault)) :
    Atomic store moves (applyAliasMovesAtomically temporary fails refuses sha256 store moves) ↔
      ((rollbackMoves refuses rotation 0 moves (rotation.store, [])).2 = [] →
        (rollbackMoves refuses rotation 0 moves (rotation.store, [])).1 = store) := by
  unfold applyAliasMovesAtomically
  rw [passed]
  dsimp only
  rw [ran]
  dsimp only
  cases ended : rollbackMoves refuses rotation 0 moves (rotation.store, []) with
  | mk after errors =>
    cases errors with
    | nil => exact ⟨fun atomic _ => atomic, fun restored => restored rfl⟩
    | cons error errors => exact ⟨fun _ => nofun, fun _ => trivial⟩

omit passed in
theorem moved_of_installed (fresh : Fresh temporary moves)
    (accepted : Accepted sha256 store moves hashes) :
    Moved store moves (relocated store (located temporary moves.length moves)) := by
  have distinct := located_distinct moves.length fresh accepted.news
  have targets : ∀ name, name ∈ (located temporary moves.length moves).map snd →
      name ∈ moves.map newAlias := by
    intro name member
    rcases mem_located_snd member with ⟨i, small, late, -⟩ | ⟨i, small, -, same⟩
    · exact absurd small late
    · exact mem_map.mpr ⟨moves[i], getElem_mem small, same.symm⟩
  refine ⟨fun move member => relocated_of_mem distinct (mem_located member), ?_, ?_⟩
  · intro move member absent
    have among : move.oldAlias ∈ (located temporary moves.length moves).map fst := by
      rw [located_fst]
      exact mem_map_of_mem member
    rw [relocated_of_not_mem fun target => absent (targets _ target), if_pos among]
  · intro name old new
    rw [relocated_of_not_mem fun target => new (targets _ target), located_fst, if_neg old]

variable {i j : Nat}

omit passed in
theorem current_of_ids (temporary : Nat → String) (installed : Nat)
    (ids : (moves.map objectId).Nodup) (after : Store) (small : i < moves.length) :
    (⟨after, ofEntries (temporaries temporary moves),
      ((moves.take installed).map objectId).reverse⟩ : Rotation).current moves[i] =
        some (if i < installed then moves[i].newAlias else temporary i) := by
  have mem_finalised : moves[i].objectId ∈ ((moves.take installed).map objectId).reverse ↔
      i < installed := by
    rw [mem_reverse]
    constructor
    · intro member
      obtain ⟨move, isTaken, same⟩ := mem_map.mp member
      obtain ⟨j, bound, rfl⟩ := mem_take_iff_getElem.mp isTaken
      have bound' : j < moves.length := by omega
      have equal := (inj_on_of_nodup_map ids (getElem_mem bound') (getElem_mem small)) same
      have index := (List.Nodup.getElem_inj_iff ids.of_map).mp equal
      omega
    · intro early
      exact mem_map_of_mem (mem_take_iff_getElem.mpr ⟨i, by omega, rfl⟩)
  have lookup : (ofEntries (temporaries temporary moves)).lookup moves[i].objectId =
      some (temporary i) := by
    have split : moves.take i ++ moves[i] :: moves.drop (i + 1) = moves := by
      rw [List.getElem_cons_drop, take_append_drop]
    have found := @temporaries_lookup temporary (moves.drop (i + 1)) (moves.take i) moves[i]
    rw [split, length_take_of_le (Nat.le_of_lt small)] at found
    exact found ids
  unfold Rotation.current
  simp only [mem_finalised, lookup]
  split <;> rfl

omit passed in
theorem ids_distinct {k : Nat} (most : k ≤ moves.length)
    (apart : ∀ i j (less : i < j) (_ : j < k) (small : j < moves.length),
      moves[i].objectId ≠ moves[j].objectId) :
    ((moves.take k).map objectId).Nodup := by
  refine List.pairwise_iff_getElem.mpr fun i j first second less => ?_
  have bound : j < k := by
    rw [length_map, length_take_of_le most] at second
    exact second
  rw [getElem_map, getElem_map, getElem_take, getElem_take]
  exact apart i j less bound (by omega)

theorem atomic_of_undoable
    (fresh : Fresh temporary moves) (undoable : Undoable temporary fails store moves) :
    Atomic store moves (applyAliasMovesAtomically temporary fails refuses sha256 store moves) := by
  have accepted := preflight_accepted passed
  obtain ⟨most, free⟩ := stagedCount_spec temporary fails store 0 moves
  have ids := ids_distinct most fun i j less early small =>
    undoable.identified i (Nat.lt_trans less early) j small (Nat.lt_trans less small) (Nat.ne_of_lt less)
  by_cases wholly : stagedCount temporary fails store 0 moves = moves.length
  · rw [wholly, take_length] at ids
    obtain ⟨fault, ran, complete⟩ := tryMoves_staged accepted fresh ids wholly
    cases fault with
    | none =>
      have all : installedCount fails 0 moves = moves.length := by
        have calm := complete.mp rfl
        have bound := installedCount_le fails 0 moves
        exact Nat.le_antisymm bound (Nat.le_of_not_lt fun less => calm (.inl less))
      rw [apply_completed passed ran, all]
      exact moved_of_installed fresh accepted
    | some fault =>
      have interrupted : Interrupted fails moves := by
        by_contra calm
        cases complete.mpr calm
      rw [apply_failed passed ran]
      refine rollbackMoves_restores fresh accepted.olds accepted.news accepted.sources
        (fun i small => current_of_ids temporary _ ids _ small) (undoable.ordered wholly interrupted) ?_ ?_
      · intro i small
        have isFree := free i (by rwa [wholly])
        rwa [Nat.zero_add] at isFree
      · intro i early small others
        refine accepted.free _ (getElem_mem small) fun among => ?_
        obtain ⟨other, isOther, same⟩ := mem_map.mp among
        obtain ⟨j, bound, rfl⟩ := mem_iff_getElem.mp isOther
        by_cases least : j ≤ i
        · exact others j least same
        · exact undoable.ordered wholly interrupted i early j bound (Nat.lt_of_not_le least) same
  · obtain ⟨fault, ran⟩ := tryMoves_unstaged accepted fresh wholly
    have identified := undoable.identified
    generalize stagedCount temporary fails store 0 moves = k at *
    have prefixed : (moves.take k).Sublist moves := List.take_sublist _ _
    have length : (moves.take k).length = k := length_take_of_le most
    have unstaged : ∀ move ∈ moves.drop k,
        (ofEntries (temporaries temporary (moves.take k))).lookup move.objectId = none := by
      intro move member
      rw [lookup_ofEntries, Table.lastItem_eq_none, temporaries_fst]
      intro among
      obtain ⟨other, isTaken, same⟩ := mem_map.mp among
      obtain ⟨i, early, rfl⟩ := mem_take_iff_getElem.mp isTaken
      obtain ⟨j, late, rfl⟩ := List.mem_drop_iff_getElem.mp member
      exact identified i (by omega) (_ + j) (by omega) (by omega) (by omega) same
    rw [apply_failed passed ran, rollbackMoves_take unstaged]
    refine rollbackMoves_restores (fresh.subset prefixed.subset) (accepted.olds.sublist (prefixed.map _))
      (accepted.news.sublist (prefixed.map _))
      (fun move member => accepted.sources move (prefixed.subset member))
      (fun i small => current_of_ids temporary 0 ids _ small)
      (fun i impossible => absurd impossible (Nat.not_lt_zero i)) ?_
      (fun i impossible => absurd impossible (Nat.not_lt_zero i))
    intro i small
    have isFree := free i (by rwa [length] at small)
    rwa [Nat.zero_add] at isFree

end

/-! A temporary name that no other name refers to keeps its contents. -/

variable {name : String}

theorem finaliseMoves_other {index : Nat} (unstaged : ∀ id, rotation.staged.lookup id ≠ some name)
    (apart : ∀ move ∈ moves, name ≠ move.newAlias) :
    (finaliseMoves fails index moves rotation).1.store name = rotation.store name ∧
      (finaliseMoves fails index moves rotation).1.staged = rotation.staged := by
  induction moves generalizing index rotation with
  | nil => exact ⟨rfl, rfl⟩
  | cons move moves ih =>
    obtain ⟨here, later⟩ := forall_mem_cons.mp apart
    unfold finaliseMoves
    split
    · exact ⟨rfl, rfl⟩
    · rename_i current found
      have other : name ≠ current := fun same => unstaged _ (found.trans (congrArg some same.symm))
      split
      · exact ⟨rfl, rfl⟩
      · split
        · exact ⟨rfl, rfl⟩
        · rename_i after renamed
          obtain ⟨kept, staged⟩ := @ih { rotation with
            store := after, finalised := move.objectId :: rotation.finalised } _ unstaged later
          exact ⟨kept.trans (rename_other renamed other here), staged⟩

theorem tryMoves_other {fault : Option AliasFault}
    (staged : stageMoves temporary fails 0 moves ⟨store, [], []⟩ = (rotation, fault))
    (unstaged : ∀ id, rotation.staged.lookup id ≠ some name)
    (apart : ∀ move ∈ moves, name ≠ move.newAlias) :
    (tryMoves temporary fails sha256 hashes store moves).1.store name = rotation.store name ∧
      (tryMoves temporary fails sha256 hashes store moves).1.staged = rotation.staged := by
  have other := @finaliseMoves_other fails moves rotation name 0 unstaged apart
  unfold tryMoves
  rw [staged]
  cases fault with
  | some fault => exact ⟨rfl, rfl⟩
  | none =>
    dsimp only
    cases ran : finaliseMoves fails 0 moves rotation with
    | mk after fault =>
      rw [ran] at other
      cases fault with
      | some fault => exact other
      | none => exact other

theorem rollbackMoves_other {index : Nat} {state : Store × List String}
    (unstaged : ∀ id, rotation.staged.lookup id ≠ some name)
    (olds : ∀ move ∈ moves, name ≠ move.oldAlias) (news : ∀ move ∈ moves, name ≠ move.newAlias) :
    (rollbackMoves refuses rotation index moves state).1 name = state.1 name := by
  induction moves generalizing index with
  | nil => rfl
  | cons move moves ih =>
    obtain ⟨old, olds⟩ := forall_mem_cons.mp olds
    obtain ⟨new, news⟩ := forall_mem_cons.mp news
    refine (rollbackMove_other ?_ old).trans (ih olds news)
    unfold Rotation.current
    split
    · exact fun same => new (some.inj same).symm
    · exact unstaged _

theorem lookup_temporaries {id : String}
    (found : (ofEntries (temporaries temporary moves)).lookup id = some name) :
    ∃ i, ∃ small : i < moves.length, moves[i].objectId = id ∧ temporary i = name := by
  rw [lookup_ofEntries] at found
  obtain ⟨i, small, same⟩ := mem_mapIdx.mp (Table.mem_of_lastItem found)
  cases same
  exact ⟨i, small, rfl, rfl⟩

/-- No object id has the temporary name of a move that a later move with its object id replaced. -/
theorem temporaries_replaced (fresh : Fresh temporary moves) (less : i < j)
    (small : j < moves.length) (same : moves[i].objectId = moves[j].objectId) (id : String) :
    (ofEntries (temporaries temporary moves)).lookup id ≠ some (temporary i) := by
  induction moves using reverseRecOn with
  | nil => cases small
  | append_singleton moves move ih =>
    rw [temporaries_snoc, ofEntries_snoc, Table.lookup_put]
    have length : (moves ++ [move]).length = moves.length + 1 := length_append
    have early : i < moves.length := by omega
    rw [List.getElem_append_left early] at same
    split
    · intro equal
      have index := fresh.distinct _ _ (some.inj equal)
      omega
    · rename_i other
      by_cases last : j = moves.length
      · subst last
        rw [List.getElem_concat_length rfl] at same
        intro found
        obtain ⟨k, bound, key, equal⟩ := lookup_temporaries found
        cases fresh.distinct _ _ equal
        exact other (key.symm.trans same)
      · have bound : j < moves.length := by omega
        rw [List.getElem_append_left bound] at same
        exact ih (fresh.subset (List.subset_append_left _ _)) bound same

/-- Two moves of a list. -/
theorem split_pair (less : i < j) (small : j < moves.length) :
    ∃ middle rest, moves = moves.take i ++ moves[i] :: (middle ++ moves[j] :: rest) := by
  refine ⟨(moves.drop (i + 1)).take (j - (i + 1)), moves.drop (j + 1), ?_⟩
  have dropped : moves[j] :: moves.drop (j + 1) = (moves.drop (i + 1)).drop (j - (i + 1)) := by
    rw [List.getElem_cons_drop, List.drop_drop]
    congr 1
    omega
  rw [dropped, take_append_drop, List.getElem_cons_drop, take_append_drop]

section

variable (passed : preflightMoves sha256 store moves = .ok hashes)
  (fresh : Fresh temporary moves)
  (atomic : Atomic store moves (applyAliasMovesAtomically temporary fails (fun _ => false) sha256 store moves))

include passed fresh atomic

/-- When an object is staged in place of another, the other one stays under its temporary name. -/
theorem identified_staged (less : i < j) (early : j < stagedCount temporary fails store 0 moves)
    (small : j < moves.length) : moves[i].objectId ≠ moves[j].objectId := by
  intro same
  have accepted := preflight_accepted passed
  obtain ⟨most, free⟩ := stagedCount_spec temporary fails store 0 moves
  obtain ⟨fault, staged, -⟩ := stageMoves_accepted accepted fails fresh
  have isFree := free i (by omega)
  rw [Nat.zero_add] at isFree
  generalize stagedCount temporary fails store 0 moves = k at *
  have prefixed : (moves.take k).Sublist moves := List.take_sublist _ _
  have bound : j < (moves.take k).length := by rwa [length_take_of_le most]
  have unstaged : ∀ id, (ofEntries (temporaries temporary (moves.take k))).lookup id ≠
      some (temporary i) := by
    refine temporaries_replaced (fresh.subset prefixed.subset) less bound ?_
    rw [getElem_take, getElem_take]
    exact same
  have present : relocated store (located temporary 0 (moves.take k)) (temporary i) ≠ none := by
    have member : (moves[i].oldAlias, temporary i) ∈ located temporary 0 (moves.take k) := by
      refine mem_mapIdx.mpr ⟨i, by omega, ?_⟩
      rw [getElem_take, if_neg (Nat.not_lt_zero i)]
    have distinct := located_distinct 0 (fresh.subset prefixed.subset)
      (accepted.news.sublist (prefixed.map _))
    obtain ⟨contents, found⟩ := accepted.sources moves[i] (getElem_mem _)
    have here := @relocated_of_mem String Bytes _ store _ distinct _ member
    rw [here, found]
    nofun
  have olds : ∀ move ∈ moves, temporary i ≠ move.oldAlias := fresh.olds i
  have news : ∀ move ∈ moves, temporary i ≠ move.newAlias := fresh.news i
  obtain ⟨kept, known⟩ := tryMoves_other staged unstaged news
  cases ran : tryMoves temporary fails sha256 hashes store moves with
  | mk rotation fault =>
    rw [ran] at kept known
    cases fault with
    | none =>
      rw [apply_completed passed ran] at atomic
      have whole := atomic.kept (temporary i)
        (fun among => by
          obtain ⟨move, member, equal⟩ := mem_map.mp among
          exact olds move member equal.symm)
        (fun among => by
          obtain ⟨move, member, equal⟩ := mem_map.mp among
          exact news move member equal.symm)
      exact present (kept.symm.trans (whole.trans isFree))
    | some fault =>
      have restored := (apply_failed passed ran).mp atomic (rollbackMoves_unrefused rfl)
      have here := @rollbackMoves_other moves rotation (fun _ => false) (temporary i) 0
        (rotation.store, []) (by rwa [known]) olds news
      rw [restored] at here
      exact present (kept.symm.trans (here.symm.trans isFree))

/-- When a move that is not staged has the object id of one that is, its undoing moves the object of the
other one. -/
theorem identified_unstaged
    (ids : ((moves.take (stagedCount temporary fails store 0 moves)).map objectId).Nodup)
    (early : i < stagedCount temporary fails store 0 moves)
    (late : stagedCount temporary fails store 0 moves ≤ j) (small : j < moves.length) :
    moves[i].objectId ≠ moves[j].objectId := by
  intro same
  have accepted := preflight_accepted passed
  have most := (stagedCount_spec temporary fails store 0 moves).1
  have partially : stagedCount temporary fails store 0 moves ≠ moves.length := by omega
  obtain ⟨fault, ran⟩ := tryMoves_unstaged accepted fresh partially
  have restored := (apply_failed passed ran).mp atomic (rollbackMoves_unrefused rfl)
  have bound : i < (moves.take (stagedCount temporary fails store 0 moves)).length := by
    rwa [length_take_of_le most]
  have current := current_of_ids temporary 0 ids
    (relocated store (located temporary 0 (moves.take (stagedCount temporary fails store 0 moves)))) bound
  rw [getElem_take, if_neg (Nat.not_lt_zero i)] at current
  have gone : relocated store (located temporary 0
      (moves.take (stagedCount temporary fails store 0 moves))) moves[i].oldAlias = none := by
    have member : moves[i].oldAlias ∈ (located temporary 0
        (moves.take (stagedCount temporary fails store 0 moves))).map fst := by
      rw [located_fst]
      exact mem_map_of_mem (mem_take_iff_getElem.mpr ⟨i, by omega, rfl⟩)
    rw [relocated_of_not_mem, if_pos member]
    intro among
    rcases mem_located_snd among with ⟨index, -, -, equal⟩ | ⟨index, _, impossible, -⟩
    · exact fresh.olds index moves[i] (getElem_mem _) equal.symm
    · exact Nat.not_lt_zero index impossible
  generalize relocated store (located temporary 0
    (moves.take (stagedCount temporary fails store 0 moves))) = after at *
  generalize ofEntries (temporaries temporary
    (moves.take (stagedCount temporary fails store 0 moves))) = names at *
  have shared : (⟨after, names, []⟩ : Rotation).current moves[j] = some (temporary i) := by
    rw [← current]
    unfold Rotation.current
    rw [same]
    rfl
  obtain ⟨middle, rest, split⟩ := split_pair (Nat.lt_of_lt_of_le early late) small
  have undone := @rollbackMoves_shared moves[i] ⟨after, names, []⟩ (after, []) 0 (moves.take i)
    middle rest moves[j] (temporary i) current shared
  rw [← split, restored] at undone
  obtain ⟨contents, found⟩ := accepted.sources moves[i] (getElem_mem _)
  rw [found] at undone
  exact nomatch undone (fresh.olds i) accepted.olds gone

/-- When the alias of an installed object is the old alias of a later move, undoing that move replaces the
object. -/
theorem ordered_installed (ids : (moves.map objectId).Nodup)
    (wholly : stagedCount temporary fails store 0 moves = moves.length)
    (interrupted : Interrupted fails moves)
    (early : i < installedCount fails 0 moves) (less : i < j) (small : j < moves.length) :
    moves[j].oldAlias ≠ moves[i].newAlias := by
  intro same
  have accepted := preflight_accepted passed
  obtain ⟨fault, ran, complete⟩ := tryMoves_staged accepted fresh ids wholly
  have current := current_of_ids temporary (installedCount fails 0 moves) ids
    (relocated store (located temporary (installedCount fails 0 moves) moves)) (Nat.lt_trans less small)
  rw [if_pos early] at current
  cases fault with
  | none => exact complete.mp rfl interrupted
  | some fault =>
    have restored := (apply_failed passed ran).mp atomic (rollbackMoves_unrefused rfl)
    obtain ⟨middle, rest, split⟩ := split_pair less small
    have distinct : ∀ k (bound : k < moves.length), k ≠ j → moves[i].newAlias ≠ moves[k].oldAlias := by
      intro k bound other equal
      have index := inj_on_of_nodup_map accepted.olds (getElem_mem bound)
        (getElem_mem small) (equal.symm.trans same.symm)
      exact other ((List.Nodup.getElem_inj_iff accepted.olds.of_map).mp index)
    have undone := @rollbackMoves_current moves[i] _ (relocated store (located temporary
      (installedCount fails 0 moves) moves), []) 0 (moves.take i) (middle ++ moves[j] :: rest) _ current
      (distinct i (by omega) (by omega)) ?_
    · rw [← split, restored, ← same] at undone
      obtain ⟨contents, found⟩ := accepted.sources moves[j] (getElem_mem _)
      rw [found] at undone
      cases undone
    · intro other member
      obtain ⟨k, bound, rfl⟩ := mem_take_iff_getElem.mp member
      exact distinct k (by omega) (by omega)

end

end Outcome

end Atomicity

/-- A rotation of accepted moves is atomic, whichever renames of a rollback are refused, exactly when they can
be undone. -/
theorem atomic_iff_undoable (token : String) (fails : RotationStep → Bool)
    (sha256 : Bytes → Bytes) (store : Store) (moves : List AliasMove) (hashes : List (String × Bytes))
    (passed : preflightMoves sha256 store moves = .ok hashes) (tokenFresh : TokenFresh token moves) :
    (∀ refuses, Atomic store moves
      (applyAliasMovesAtomically (temporaryName token) fails refuses sha256 store moves)) ↔
      Undoable (temporaryName token) fails store moves := by
  have fresh := tokenFresh.fresh
  refine ⟨fun atomic => ?_, fun undoable refuses => atomic_of_undoable passed fresh undoable⟩
  have calm := atomic fun _ => false
  have most := (stagedCount_spec (temporaryName token) fails store 0 moves).1
  have staged : ∀ i j (less : i < j) (early : j < stagedCount (temporaryName token) fails store 0 moves)
      (small : j < moves.length), moves[i].objectId ≠ moves[j].objectId :=
    fun i j less early small => identified_staged passed fresh calm less early small
  have ids := ids_distinct most staged
  refine ⟨fun i early j small small' apart => ?_, fun wholly interrupted i early j small less => ?_⟩
  · rcases Nat.lt_or_ge j (stagedCount (temporaryName token) fails store 0 moves) with bound | late
    · rcases Nat.lt_or_gt_of_ne apart with less | greater
      · exact staged i j less bound small
      · exact (staged j i greater early small').symm
    · exact identified_unstaged passed fresh calm ids early late small
  · rw [wholly, take_length] at ids
    exact ordered_installed passed fresh calm ids wholly interrupted early less small

/-! ## A chain and a cycle -/

def objectHash (contents : Bytes) : Bytes := if contents = [1] then
    [75, 245, 18, 47, 52, 69, 84, 197, 59, 222, 46, 187, 140, 210, 183, 227]
    ++ [209, 96, 10, 214, 49, 195, 133, 165, 215, 204, 226, 60, 119, 133, 69, 154]
  else
    [219, 193, 180, 201, 0, 255, 228, 141, 87, 91, 93, 165, 198, 56, 4, 1]
    ++ [37, 246, 93, 176, 254, 62, 36, 73, 75, 118, 234, 152, 100, 87, 217, 134]

def twoObjects : Store := fun name =>
  if name = "alias-one" then some [1] else if name = "alias-two" then some [2] else none

/-- Moves of two objects one after the other. -/
def chain : List AliasMove :=
  [⟨"two", "alias-two", "alias-three"⟩, ⟨"one", "alias-one", "alias-two"⟩]

/-- Moves of two objects in place of each other. -/
def cycle : List AliasMove := [⟨"one", "alias-one", "alias-two"⟩, ⟨"two", "alias-two", "alias-one"⟩]

theorem chain_atomic : Atomic twoObjects chain
    (applyAliasMovesAtomically (temporaryName "f0") (fun step => step = .install 1) (fun _ => false)
      objectHash twoObjects chain) := by
  refine (atomic_iff_undoable "f0" _ objectHash twoObjects chain
    [("two", objectHash [2]), ("one", objectHash [1])] rfl (tokenFresh_of_head (by decide))).mpr
      ⟨?_, ?_⟩ fun _ => false
  · decide +kernel
  · intro _ _
    decide +kernel

theorem cycle_loses_object : preflightMoves objectHash twoObjects cycle =
        .ok [("one", objectHash [1]), ("two", objectHash [2])] ∧
      TokenFresh "f0" cycle ∧
      ¬ Atomic twoObjects cycle (applyAliasMovesAtomically (temporaryName "f0")
        (fun step => step = .install 1) (fun _ => false) objectHash twoObjects cycle) := by
  refine ⟨rfl, tokenFresh_of_head (by decide), fun atomic => ?_⟩
  have restored := congrFun atomic "alias-two"
  cases restored

end Koschei.ObjectStore
