import Koschei.Lowering.Lower

/-!
# How lowering grows a function

Lowering only ever adds: it appends instructions to the open block it stands
in, terminates it, and makes new blocks; a terminated block is never touched
again. `Embeds` says that one state of the lowerer is part of another in this
sense, and `Shape` adds where the later state stands and which blocks are as
they were. A block that has been reserved and not yet begun is `Blank`.

Names and scopes grow in the same way. An expression leaves the scopes as they
are; a statement adds names to the innermost scope, and every name it adds is
unused before.
-/

namespace Koschei.Lowering

open Lib Ast Mir

variable {α β : Type}

/-! ## Inverting the lowering monad -/

variable {L L' : Lowerer} {b : β}

theorem bind_ok {x : Lower α} {f : α → Lower β} :
    (x >>= f) L = .ok b L' ↔ ∃ a M, x L = .ok a M ∧ f a M = .ok b L' :=
  andThen_eq_ok

theorem pure_ok {a b : α} : (pure a : Lower α) L = .ok b L' ↔ b = a ∧ L' = L := by
  constructor
  · intro done
    cases done
    exact ⟨rfl, rfl⟩
  · rintro ⟨rfl, rfl⟩
    rfl

variable {u : Unit}

theorem modify_ok {f : Lowerer → Lowerer} :
    (Comp.modify f : Lower Unit) L = .ok u L' ↔ L' = f L := by
  constructor
  · intro done
    cases done
    rfl
  · rintro rfl
    rfl

theorem newValue_ok {id : ValueId} :
    newValue L = .ok id L' ↔ id = (L.nextValue : Int) ∧ L' = L.bump := by
  constructor
  · intro done
    cases done
    exact ⟨rfl, rfl⟩
  · rintro ⟨rfl, rfl⟩
    rfl

variable {block : Nat}

theorem newBlock_ok : newBlock L = .ok block L' ↔ block = L.nextBlock ∧ L' = L.grow := by
  constructor
  · intro done
    cases done
    exact ⟨rfl, rfl⟩
  · rintro ⟨rfl, rfl⟩
    rfl

theorem setCurrent_ok : setCurrent block L = .ok u L' ↔ L' = L.goto block := by
  constructor
  · intro done
    cases done
    rfl
  · rintro rfl
    rfl

theorem emit_ok {instruction : Instruction} :
    emit instruction L = .ok u L' ↔ L.terminated = false ∧ L' = L.push instruction := by
  unfold emit
  cases L.terminated with
  | true => simp
  | false => simp [eq_comm]

variable {terminator : Terminator}

theorem terminate_ok :
    terminate terminator L = .ok u L' ↔ L.terminated = false ∧ L' = L.close terminator := by
  unfold terminate
  cases L.terminated with
  | true => simp
  | false => simp [eq_comm]

variable {instruction : ValueId → Instruction}

theorem emitValue_ok {id : ValueId} :
    emitValue instruction L = .ok id L' ↔ id = (L.nextValue : Int) ∧ L.terminated = false ∧
        L' = L.bump.push (instruction (L.nextValue : Int)) := by
  simp only [emitValue, bind_ok, newValue_ok, emit_ok, pure_ok]
  constructor
  · rintro ⟨_, _, ⟨rfl, rfl⟩, _, _, ⟨free, rfl⟩, rfl, rfl⟩
    exact ⟨rfl, free, rfl⟩
  · rintro ⟨rfl, free, rfl⟩
    exact ⟨_, _, ⟨rfl, rfl⟩, (), _, ⟨free, rfl⟩, rfl, rfl⟩

/-! The same, for an action at the head of a sequence. -/

section Sequence

variable {f : Unit → Lower β} {L L' : Lowerer} {b : β}

theorem emit_then {instruction : Instruction} : (emit instruction >>= f) L = .ok b L' ↔
      L.terminated = false ∧ f () (L.push instruction) = .ok b L' := by
  simp only [bind_ok, emit_ok]
  constructor
  · rintro ⟨_, _, ⟨free, rfl⟩, done⟩
    exact ⟨free, done⟩
  · rintro ⟨free, done⟩
    exact ⟨(), _, ⟨free, rfl⟩, done⟩

theorem setCurrent_then :
    (setCurrent block >>= f) L = .ok b L' ↔ f () (L.goto block) = .ok b L' := by
  simp only [bind_ok, setCurrent_ok]
  constructor
  · rintro ⟨_, _, rfl, done⟩
    exact done
  · exact fun done => ⟨(), _, rfl, done⟩

theorem emitValue_then {f : ValueId → Lower β} :
    (emitValue instruction >>= f) L = .ok b L' ↔ L.terminated = false ∧
        f (L.nextValue : Int) (L.bump.push (instruction (L.nextValue : Int))) = .ok b L' := by
  simp only [bind_ok, emitValue_ok]
  constructor
  · rintro ⟨_, _, ⟨rfl, free, rfl⟩, done⟩
    exact ⟨free, done⟩
  · rintro ⟨free, done⟩
    exact ⟨_, _, ⟨rfl, free, rfl⟩, done⟩

end Sequence

variable {candidate : Nat → String} {name : String} {number : Nat}

theorem searchName_unused {used : List String} {tries start : Nat}
    (found : searchName used candidate tries start = some (name, number)) :
    name ∉ used ∧ ∃ k, name = candidate k := by
  induction tries generalizing start with
  | zero => cases found
  | succ tries ih =>
    unfold searchName at found
    split at found
    · exact ih found
    · rename_i unused
      cases found
      exact ⟨unused, start, rfl⟩

@[simps blocks current nextBlock nextValue used scopes loopTargets]
def Lowerer.take (L : Lowerer) (name : String) (number : Nat) : Lowerer :=
  { L with nextBinding := number, used := name :: L.used }

theorem takeName_ok (done : takeName candidate L = .ok name L') :
    name ∉ L.used ∧ (∃ k, name = candidate k) ∧ ∃ number, L' = L.take name number := by
  unfold takeName at done
  split at done
  · rename_i found
    cases done
    obtain ⟨unused, shape⟩ := searchName_unused found
    exact ⟨unused, shape, _, rfl⟩
  · cases done

theorem newInternalName_ok {purpose : String} (done : newInternalName purpose L = .ok name L') :
    name ∉ L.used ∧ (∃ k, name = internalName purpose k) ∧ ∃ number, L' = L.take name number :=
  takeName_ok done

/-- The lowerer after a source name is bound to an internal one. -/
@[simps blocks current nextBlock nextValue used loopTargets]
def Lowerer.scope (L : Lowerer) (sourceName internal : String) : Lowerer :=
  { L with scopes := bindSource sourceName internal L.scopes }

theorem newBindingName_ok {sourceName internal : String}
    (done : newBindingName sourceName L = .ok internal L') :
    internal ∉ L.used ∧ (internal = sourceName ∨ ∃ k, internal = renamed sourceName k) ∧
      ∃ number, L' = (L.take internal number).scope sourceName internal := by
  simp only [newBindingName, bind_ok, modify_ok, pure_ok] at done
  obtain ⟨_, M, taken, _, _, rfl, rfl, rfl⟩ := done
  simp only [takeBindingName, withState_apply] at taken
  split at taken
  · obtain ⟨unused, shape, number, rfl⟩ := takeName_ok taken
    exact ⟨unused, .inr shape, number, rfl⟩
  · rename_i unused
    simp only [bind_ok, modify_ok, pure_ok] at taken
    obtain ⟨_, _, rfl, rfl, rfl⟩ := taken
    exact ⟨unused, .inl rfl, _, rfl⟩

/-! ## Projections of the primitive changes -/

namespace Lowerer

variable (L : Lowerer) (i : Instruction) (t : Terminator)

@[simp] theorem push_blocks_self : (L.push i).blocks L.current =
    ⟨(L.blocks L.current).instructions ++ [i], (L.blocks L.current).terminator⟩ := by
  simp [push]

@[simp] theorem close_blocks_self : (L.close t).blocks L.current =
    ⟨(L.blocks L.current).instructions, some t⟩ := by
  simp [close]

variable {block : Nat}

theorem push_blocks_of_ne (other : block ≠ L.current) :
    (L.push i).blocks block = L.blocks block := by
  simp [push, update_of_ne other]

theorem close_blocks_of_ne (other : block ≠ L.current) :
    (L.close t).blocks block = L.blocks block := by
  simp [close, update_of_ne other]

theorem grow_blocks_of_ne (other : block ≠ L.nextBlock) : L.grow.blocks block = L.blocks block := by
  simp [grow, update_of_ne other]

@[simp] theorem grow_blocks_self : L.grow.blocks L.nextBlock = ⟨[], none⟩ := by
  simp [grow]

@[simp] theorem bump_terminated : L.bump.terminated = L.terminated := rfl

@[simp] theorem push_terminated : (L.push i).terminated = L.terminated := by
  simp [terminated]

@[simp] theorem close_terminated : (L.close t).terminated = true := by
  simp [terminated]

variable (name source : String) (number : Nat)

@[simp] theorem take_terminated : (L.take name number).terminated = L.terminated := rfl

@[simp] theorem scope_terminated : (L.scope source name).terminated = L.terminated := rfl

end Lowerer

/-! ## Growth of blocks -/

/-- One state of the lowerer is part of another: blocks are only added, instructions only
appended, and terminated blocks are final. -/
structure Embeds (L L' : Lowerer) : Prop where
  blocks : L.nextBlock ≤ L'.nextBlock
  used : L.used ⊆ L'.used
  instructions : ∀ b < L.nextBlock, (L.blocks b).instructions <+: (L'.blocks b).instructions
  terminated : ∀ b < L.nextBlock, (L.blocks b).terminator.isSome → L'.blocks b = L.blocks b

theorem Embeds.refl (L : Lowerer) : Embeds L L :=
  ⟨le_rfl, Subset.refl _, fun _ _ => prefix_rfl, fun _ _ _ => rfl⟩

theorem Embeds.trans {M N : Lowerer} (first : Embeds L M) (second : Embeds M N) : Embeds L N where
  blocks := first.blocks.trans second.blocks
  used := Subset.trans first.used second.used
  instructions b made :=
    (first.instructions b made).trans (second.instructions b (made.trans_le first.blocks))
  terminated b made closed := by
    have same := first.terminated b made closed
    rw [second.terminated b (made.trans_le first.blocks) (by rw [same]; exact closed), same]

namespace Embeds

variable {L M : Lowerer}

section

variable (part : Embeds L M)

include part

/-- A terminated block of the earlier state is not the open current block of the later. -/
theorem ne_of_terminated (free : M.terminated = false) {b : Nat}
    (made : b < L.nextBlock) (closed : (L.blocks b).terminator.isSome) : b ≠ M.current := by
  rintro rfl
  rw [Lowerer.terminated, part.terminated _ made closed, closed] at free
  cases free

theorem congr {N : Lowerer} (blocks : N.blocks = M.blocks)
    (nextBlock : N.nextBlock = M.nextBlock) (used : M.used ⊆ N.used) : Embeds L N where
  blocks := nextBlock ▸ part.blocks
  used := Subset.trans part.used used
  instructions b made := blocks ▸ part.instructions b made
  terminated b made closed := blocks ▸ part.terminated b made closed

theorem push (free : M.terminated = false) (i : Instruction) : Embeds L (M.push i) where
  blocks := part.blocks
  used := part.used
  instructions b made := by
    by_cases same : b = M.current
    · subst same
      rw [M.push_blocks_self]
      exact (part.instructions _ made).trans (prefix_append _ _)
    · rw [M.push_blocks_of_ne i same]
      exact part.instructions b made
  terminated b made closed := by
    rw [M.push_blocks_of_ne i (part.ne_of_terminated free made closed)]
    exact part.terminated b made closed

theorem close (free : M.terminated = false) (t : Terminator) : Embeds L (M.close t) where
  blocks := part.blocks
  used := part.used
  instructions b made := by
    by_cases same : b = M.current
    · subst same
      rw [M.close_blocks_self]
      exact part.instructions _ made
    · rw [M.close_blocks_of_ne t same]
      exact part.instructions b made
  terminated b made closed := by
    rw [M.close_blocks_of_ne t (part.ne_of_terminated free made closed)]
    exact part.terminated b made closed

theorem grow : Embeds L M.grow := by
  have unchanged (b : Nat) (made : b < L.nextBlock) : M.grow.blocks b = M.blocks b :=
    M.grow_blocks_of_ne (Nat.ne_of_lt (made.trans_le part.blocks))
  refine ⟨part.blocks.trans (Nat.le_succ _), part.used, fun b made => ?_, fun b made closed => ?_⟩
  · rw [unchanged b made]
    exact part.instructions b made
  · rw [unchanged b made]
    exact part.terminated b made closed

end

/-! The same read backwards: what is part of a later state was part of it before. -/

variable {F : Lowerer}

theorem before_push {i : Instruction} (part : Embeds (L.push i) F)
    (free : L.terminated = false) : Embeds L F :=
  ((Embeds.refl L).push free i).trans part

theorem before_close {t : Terminator} (part : Embeds (L.close t) F)
    (free : L.terminated = false) : Embeds L F :=
  ((Embeds.refl L).close free t).trans part

theorem before_grow (part : Embeds L.grow F) : Embeds L F := (Embeds.refl L).grow.trans part

theorem before (part : Embeds M F) (blocks : M.blocks = L.blocks)
    (nextBlock : M.nextBlock = L.nextBlock) (used : L.used ⊆ M.used) : Embeds L F :=
  ((Embeds.refl L).congr blocks nextBlock used).trans part

theorem before_goto (part : Embeds (L.goto block) F) : Embeds L F :=
  part.before rfl rfl (Subset.refl _)

theorem before_bump (part : Embeds L.bump F) : Embeds L F :=
  part.before rfl rfl (Subset.refl _)

theorem before_take (part : Embeds (L.take name number) F) : Embeds L F :=
  part.before rfl rfl (subset_cons_self _ _)

theorem before_take_close {t : Terminator}
    (part : Embeds ((L.take name number).close t) F) : Embeds (L.close t) F :=
  part.before rfl rfl (subset_cons_self _ _)

end Embeds

/-- Growth from one state: where the later one stands, which blocks are untouched, and
that every new name has the property `P`. -/
structure Shape (P : String → Prop) (L L' : Lowerer) : Prop extends Embeds L L' where
  kept : ∀ b < L.nextBlock, b ≠ L.current → L'.blocks b = L.blocks b
  current : L'.current = L.current ∨ L.nextBlock ≤ L'.current
  inside : L'.current < L'.nextBlock
  values : L.nextValue ≤ L'.nextValue
  names : ∀ name ∈ L'.used, name ∈ L.used ∨ P name

namespace Shape

variable {P : String → Prop} {base L M : Lowerer}

theorem refl (inside : L.current < L.nextBlock) : Shape P L L :=
  ⟨.refl L, fun _ _ _ => rfl, .inl rfl, inside, le_rfl, fun _ old => .inl old⟩

/-- A block before the base that is not its current one is not the current one later. -/
theorem ne_current (shape : Shape P base L) {b : Nat} (made : b < base.nextBlock)
    (other : b ≠ base.current) : b ≠ L.current := by
  rcases shape.current with same | new
  · rw [same]
    exact other
  · omega

theorem trans (first : Shape P base L) (second : Shape P L M) : Shape P base M where
  toEmbeds := first.toEmbeds.trans second.toEmbeds
  kept b made other := by
    rw [second.kept b (made.trans_le first.blocks) (first.ne_current made other),
      first.kept b made other]
  current := by
    rcases second.current with same | new
    · rw [same]
      exact first.current
    · exact .inr (first.blocks.trans new)
  inside := second.inside
  values := first.values.trans second.values
  names name later := by
    rcases second.names name later with earlier | new
    · exact first.names name earlier
    · exact .inr new

variable (shape : Shape P base L)

include shape

/-- What changes neither blocks nor names changes no shape. -/
theorem congr (blocks : M.blocks = L.blocks)
    (current : M.current = L.current) (nextBlock : M.nextBlock = L.nextBlock)
    (values : L.nextValue ≤ M.nextValue) (used : M.used = L.used) : Shape P base M where
  toEmbeds := shape.toEmbeds.congr blocks nextBlock (used ▸ Subset.refl _)
  kept b made other := blocks ▸ shape.kept b made other
  current := current ▸ shape.current
  inside := by
    rw [current, nextBlock]
    exact shape.inside
  values := shape.values.trans values
  names := used ▸ shape.names

theorem bump : Shape P base L.bump := shape.congr rfl rfl rfl (Nat.le_succ _) rfl

theorem scope (source name : String) : Shape P base (L.scope source name) :=
  shape.congr rfl rfl rfl le_rfl rfl

theorem take (fits : P name) (number : Nat) : Shape P base (L.take name number) where
  toEmbeds := shape.toEmbeds.congr rfl rfl (subset_cons_self _ _)
  kept := shape.kept
  current := shape.current
  inside := shape.inside
  values := shape.values
  names other later := by
    rcases mem_cons.mp later with rfl | earlier
    · exact .inr fits
    · exact shape.names other earlier

/-- Nor does what changes the current block, if what is there stays. -/
theorem touch (embeds : Embeds base M) (blocks : ∀ {b}, b ≠ L.current → M.blocks b = L.blocks b)
    (current : M.current = L.current) (nextBlock : M.nextBlock = L.nextBlock)
    (values : M.nextValue = L.nextValue) (used : M.used = L.used) : Shape P base M where
  toEmbeds := embeds
  kept b made other := by
    rw [blocks (shape.ne_current made other)]
    exact shape.kept b made other
  current := current ▸ shape.current
  inside := by
    rw [current, nextBlock]
    exact shape.inside
  values := values ▸ shape.values
  names := used ▸ shape.names

theorem push (free : L.terminated = false) (i : Instruction) : Shape P base (L.push i) :=
  shape.touch (shape.toEmbeds.push free i) (L.push_blocks_of_ne i) rfl rfl rfl rfl

theorem close (free : L.terminated = false) (t : Terminator) : Shape P base (L.close t) :=
  shape.touch (shape.toEmbeds.close free t) (L.close_blocks_of_ne t) rfl rfl rfl rfl

theorem grow : Shape P base L.grow where
  toEmbeds := shape.toEmbeds.grow
  kept b made other := by
    rw [L.grow_blocks_of_ne (Nat.ne_of_lt (made.trans_le shape.blocks))]
    exact shape.kept b made other
  current := shape.current
  inside := Nat.lt_succ_of_lt shape.inside
  values := shape.values
  names := shape.names

theorem goto (new : base.nextBlock ≤ block)
    (made : block < L.nextBlock) : Shape P base (L.goto block) where
  toEmbeds := shape.toEmbeds.congr rfl rfl (Subset.refl _)
  kept := shape.kept
  current := .inr new
  inside := made
  values := shape.values
  names := shape.names

end Shape

/-- A block that has been reserved and not yet begun. -/
structure Blank (L : Lowerer) (block : Nat) : Prop where
  made : block < L.nextBlock
  other : block ≠ L.current
  empty : L.blocks block = ⟨[], none⟩

namespace Blank

variable {L M : Lowerer} {block : Nat}

theorem self (inside : L.current < L.nextBlock) : Blank L.grow L.nextBlock :=
  ⟨Nat.lt_succ_self _, Nat.ne_of_gt inside, L.grow_blocks_self⟩

variable (blank : Blank L block)

include blank

theorem grow : Blank L.grow block := ⟨Nat.lt_succ_of_lt blank.made, blank.other, by
    rw [L.grow_blocks_of_ne (Nat.ne_of_lt blank.made)]
    exact blank.empty⟩

theorem push (i : Instruction) : Blank (L.push i) block := ⟨blank.made, blank.other, by
    rw [L.push_blocks_of_ne i blank.other]
    exact blank.empty⟩

theorem close (t : Terminator) : Blank (L.close t) block := ⟨blank.made, blank.other, by
    rw [L.close_blocks_of_ne t blank.other]
    exact blank.empty⟩

theorem congr (blocks : M.blocks = L.blocks)
    (current : M.current = L.current) (nextBlock : M.nextBlock = L.nextBlock) : Blank M block :=
  ⟨nextBlock ▸ blank.made, current ▸ blank.other, blocks ▸ blank.empty⟩

theorem bump : Blank L.bump block := blank.congr rfl rfl rfl

theorem take (name : String) (number : Nat) :
    Blank (L.take name number) block := blank.congr rfl rfl rfl

theorem goto {next : Nat} (other : block ≠ next) : Blank (L.goto next) block :=
  ⟨blank.made, other, blank.empty⟩

theorem grown {P : String → Prop} (shape : Shape P L M) : Blank M block :=
  ⟨blank.made.trans_le shape.blocks, shape.ne_current blank.made blank.other, by
    rw [shape.kept block blank.made blank.other]
    exact blank.empty⟩

/-- A blank block is open when lowering goes there. -/
theorem terminated_goto : (L.goto block).terminated = false := by
  simp [Lowerer.terminated, blank.empty]

end Blank

/-! ## Several blocks at once, and turning to another block -/

/-- The lowerer after some more blocks are made. -/
def Lowerer.reserve (L : Lowerer) : Nat → Lowerer
  | 0 => L
  | count + 1 => (L.reserve count).grow

/-- The lowerer after its block is terminated and it goes on in another. -/
@[simps! blocks current nextBlock nextValue used scopes loopTargets]
def Lowerer.turn (L : Lowerer) (terminator : Terminator) (block : Nat) : Lowerer :=
  (L.close terminator).goto block

namespace Lowerer

variable (L : Lowerer)

section

variable (count : Nat)

include count

omit count in
/-- What making a block leaves alone, reserving blocks leaves alone. -/
theorem reserve_frame {α : Type} {f : Lowerer → α} (keeps : ∀ M, f M.grow = f M) :
    ∀ count, f (L.reserve count) = f L
  | 0 => rfl
  | count + 1 => (keeps _).trans (reserve_frame keeps count)

@[simp] theorem reserve_nextBlock : (L.reserve count).nextBlock = L.nextBlock + count := by
  induction count with
  | zero => rfl
  | succ count ih => simp only [reserve, grow_nextBlock, ih, Nat.add_assoc]

@[simp] theorem reserve_current : (L.reserve count).current = L.current :=
  reserve_frame L (fun _ => rfl) count

@[simp] theorem reserve_nextValue : (L.reserve count).nextValue = L.nextValue :=
  reserve_frame L (fun _ => rfl) count

@[simp] theorem reserve_used : (L.reserve count).used = L.used :=
  reserve_frame L (fun _ => rfl) count

@[simp] theorem reserve_scopes : (L.reserve count).scopes = L.scopes :=
  reserve_frame L (fun _ => rfl) count

@[simp] theorem reserve_loopTargets : (L.reserve count).loopTargets = L.loopTargets :=
  reserve_frame L (fun _ => rfl) count

end

theorem reserve_blocks_of_lt {count : Nat} (made : block < L.nextBlock) :
    (L.reserve count).blocks block = L.blocks block := by
  induction count with
  | zero => rfl
  | succ count ih =>
    rw [reserve, grow_blocks_of_ne _ (by rw [reserve_nextBlock]; omega), ih]

theorem reserve_terminated {count : Nat} (inside : L.current < L.nextBlock) :
    (L.reserve count).terminated = L.terminated := by
  unfold terminated
  rw [reserve_current, reserve_blocks_of_lt L inside]

@[simp] theorem reserve_reserve (first second : Nat) :
    (L.reserve first).reserve second = L.reserve (first + second) := by
  induction second with
  | zero => rfl
  | succ second ih => simp only [reserve, ih, Nat.add_eq]

end Lowerer

theorem newBlock_then {f : Nat → Lower β} :
    (newBlock >>= f) L = .ok b L' ↔ f L.nextBlock (L.reserve 1) = .ok b L' := by
  simp only [bind_ok, newBlock_ok]
  constructor
  · rintro ⟨_, _, ⟨rfl, rfl⟩, done⟩
    exact done
  · exact fun done => ⟨_, _, ⟨rfl, rfl⟩, done⟩

theorem turn_then {f : Unit → Lower β} :
    (terminate terminator >>= fun _ => setCurrent block >>= f) L = .ok b L' ↔
      L.terminated = false ∧ f () (L.turn terminator block) = .ok b L' := by
  rw [bind_ok]
  simp only [terminate_ok, setCurrent_then]
  constructor
  · rintro ⟨_, _, ⟨free, rfl⟩, done⟩
    exact ⟨free, done⟩
  · rintro ⟨free, done⟩
    exact ⟨(), _, ⟨free, rfl⟩, done⟩

theorem turn_ok :
    (terminate terminator >>= fun _ => setCurrent block) L = .ok u L' ↔
      L.terminated = false ∧ L' = L.turn terminator block := by
  rw [bind_ok]
  simp only [terminate_ok, setCurrent_ok]
  constructor
  · rintro ⟨_, _, ⟨free, rfl⟩, rfl⟩
    exact ⟨free, rfl⟩
  · rintro ⟨free, rfl⟩
    exact ⟨(), _, ⟨free, rfl⟩, rfl⟩

theorem Embeds.before_reserve {F : Lowerer} {count : Nat}
    (part : Embeds (L.reserve count) F) : Embeds L F := by
  induction count with
  | zero => exact part
  | succ count ih => exact ih part.before_grow

variable {P : String → Prop}

theorem Shape.reserve {base : Lowerer} (shape : Shape P base L)
    (count : Nat) : Shape P base (L.reserve count) := by
  induction count with
  | zero => exact shape
  | succ count ih => exact ih.grow

theorem Shape.turn {base : Lowerer} (shape : Shape P base L)
    (free : L.terminated = false) (t : Terminator) (new : base.nextBlock ≤ block)
    (made : block < L.nextBlock) : Shape P base (L.turn t block) :=
  (shape.close free t).goto new made

theorem Blank.reserve (inside : L.current < L.nextBlock) {count index : Nat}
    (small : index < count) : Blank (L.reserve count) (L.nextBlock + index) := by
  induction count with
  | zero => omega
  | succ count ih =>
    rcases Nat.lt_succ_iff_lt_or_eq.mp small with earlier | rfl
    · exact (ih earlier).grow
    · have last := Blank.self (L := L.reserve index) (by simp; omega)
      rw [Lowerer.reserve_nextBlock] at last
      exact last

theorem Blank.terminated_turn (blank : Blank L block)
    (t : Terminator) : (L.turn t block).terminated = false :=
  (blank.close t).terminated_goto

/-! ## Growth of scopes -/

/-- The binding names the scopes can reach. -/
def visible (L : Lowerer) : List String := L.scopes.flatten.map snd

/-- Every reachable binding name is used, and reached in one way only. -/
structure WellScoped (L : Lowerer) : Prop where
  nonempty : L.scopes ≠ []
  nodup : (visible L).Nodup
  used : visible L ⊆ L.used

/-- A state from which something can be lowered. -/
structure Ready (L : Lowerer) : Prop where
  free : L.terminated = false
  inside : L.current < L.nextBlock
  lexical : WellScoped L

/-- Growth by an expression: the scopes are as before and the lowerer stands in an open
block. -/
structure Regular (P : String → Prop) (L L' : Lowerer) : Prop extends Shape P L L' where
  free : L'.terminated = false
  scopes : L'.scopes = L.scopes
  loops : L'.loopTargets = L.loopTargets

/-- A state in the middle of lowering an expression. -/
structure Within (P : String → Prop) (L M : Lowerer) : Prop extends Shape P L M where
  scopes : M.scopes = L.scopes
  loops : M.loopTargets = L.loopTargets

/-- The innermost scope of `L'` is that of `L` with unused names added. -/
def Extends (L L' : Lowerer) : Prop :=
  ∃ added head tail, L.scopes = head :: tail ∧ L'.scopes = (added ++ head) :: tail ∧
    (added.map snd).Nodup ∧ ∀ entry ∈ added, entry.2 ∉ L.used ∧ entry.2 ∈ L'.used

/-- Growth by a statement. -/
structure Orderly (P : String → Prop) (L L' : Lowerer) : Prop extends Shape P L L' where
  scoping : Extends L L'
  loops : L'.loopTargets = L.loopTargets

section Scopes

variable {P : String → Prop} {L M N : Lowerer}

theorem WellScoped.congr (lexical : WellScoped L) (scopes : M.scopes = L.scopes)
    (used : L.used ⊆ M.used) : WellScoped M where
  nonempty := scopes ▸ lexical.nonempty
  nodup := by
    unfold visible
    rw [scopes]
    exact lexical.nodup
  used := by
    unfold visible
    rw [scopes]
    exact Subset.trans lexical.used used

theorem Extends.refl (nonempty : L.scopes ≠ []) : Extends L L := by
  obtain ⟨head, tail, shape⟩ := List.exists_cons_of_ne_nil nonempty
  exact ⟨[], head, tail, shape, shape, nodup_nil, by simp⟩

theorem Extends.tail (grown : Extends L M) : M.scopes.tail = L.scopes.tail := by
  obtain ⟨added, head, tail, before, after, -, -⟩ := grown
  rw [before, after]
  rfl

theorem Extends.trans (first : Extends L M) (used : L.used ⊆ M.used) (second : Extends M N)
    (used' : M.used ⊆ N.used) : Extends L N := by
  obtain ⟨added, head, tail, before, middle, nodup, fresh⟩ := first
  obtain ⟨added', head', tail', middle', after, nodup', fresh'⟩ := second
  rw [middle] at middle'
  obtain ⟨rfl, rfl⟩ := cons.inj middle'
  refine ⟨added' ++ added, head, tail, before, by simpa using after, ?_, ?_⟩
  · rw [map_append, nodup_append]
    refine ⟨nodup', nodup, ?_⟩
    rintro name later _ earlier rfl
    obtain ⟨entry, inLater, rfl⟩ := mem_map.mp later
    obtain ⟨entry', inEarlier, same⟩ := mem_map.mp earlier
    exact (fresh' entry inLater).1 (same ▸ (fresh entry' inEarlier).2)
  · intro entry inBoth
    rcases mem_append.mp inBoth with inLater | inEarlier
    · exact ⟨fun old => (fresh' entry inLater).1 (used old), (fresh' entry inLater).2⟩
    · exact ⟨(fresh entry inEarlier).1, used' (fresh entry inEarlier).2⟩

theorem Extends.wellScoped (grown : Extends L M) (lexical : WellScoped L)
    (used : L.used ⊆ M.used) : WellScoped M := by
  obtain ⟨added, head, tail, before, after, nodup, fresh⟩ := grown
  have visibleBefore : visible L = head.map snd ++ tail.flatten.map snd := by
    simp [visible, before]
  have visibleAfter : visible M = added.map snd ++ visible L := by
    simp [visible, before, after]
  refine ⟨by simp [after], ?_, ?_⟩
  · rw [visibleAfter, nodup_append]
    refine ⟨nodup, lexical.nodup, ?_⟩
    rintro name isAdded _ old rfl
    obtain ⟨entry, inAdded, rfl⟩ := mem_map.mp isAdded
    exact (fresh entry inAdded).1 (lexical.used old)
  · rw [visibleAfter]
    intro name isVisible
    rcases mem_append.mp isVisible with isAdded | old
    · obtain ⟨entry, inAdded, rfl⟩ := mem_map.mp isAdded
      exact (fresh entry inAdded).2
    · exact used (lexical.used old)

variable {name : String}

theorem Extends.visible_of_used (grown : Extends L M) (old : name ∈ L.used)
    (isVisible : name ∈ visible M) : name ∈ visible L := by
  obtain ⟨added, head, tail, before, after, -, fresh⟩ := grown
  have visibleAfter : visible M = added.map snd ++ visible L := by
    simp [visible, before, after]
  rw [visibleAfter] at isVisible
  rcases mem_append.mp isVisible with isAdded | earlier
  · obtain ⟨entry, inAdded, rfl⟩ := mem_map.mp isAdded
    exact absurd old (fresh entry inAdded).1
  · exact earlier

section

variable (grown : Regular P L M)

include grown

theorem Regular.extends (nonempty : L.scopes ≠ []) : Extends L M := by
  obtain ⟨head, tail, shape⟩ := List.exists_cons_of_ne_nil nonempty
  exact ⟨[], head, tail, shape, by rw [grown.scopes, shape]; rfl, nodup_nil, by simp⟩

theorem Regular.orderly (ready : Ready L) : Orderly P L M where
  toShape := grown.toShape
  scoping := grown.extends ready.lexical.nonempty
  loops := grown.loops

omit grown in
theorem Regular.refl (ready : Ready L) : Regular P L L := ⟨.refl ready.inside, ready.free, rfl, rfl⟩

omit grown in
theorem Regular.trans (first : Regular P L M) (second : Regular P M N) : Regular P L N where
  toShape := first.toShape.trans second.toShape
  free := second.free
  scopes := second.scopes.trans first.scopes
  loops := second.loops.trans first.loops

theorem Regular.ready (ready : Ready L) : Ready M where
  free := grown.free
  inside := grown.inside
  lexical := ready.lexical.congr grown.scopes grown.used

theorem Regular.emitValue (i : Instruction) : Regular P L (M.bump.push i) where
  toShape := grown.toShape.bump.push grown.free i
  free := by simpa using grown.free
  scopes := grown.scopes
  loops := grown.loops

theorem Regular.push (i : Instruction) : Regular P L (M.push i) where
  toShape := grown.toShape.push grown.free i
  free := by simpa using grown.free
  scopes := grown.scopes
  loops := grown.loops

theorem Regular.take (fits : P name) (number : Nat) : Regular P L (M.take name number) where
  toShape := grown.toShape.take fits number
  free := grown.free
  scopes := grown.scopes
  loops := grown.loops

theorem Regular.within : Within P L M :=
  ⟨grown.toShape, grown.scopes, grown.loops⟩

end

section

variable (grown : Within P L M)

include grown

theorem Within.regular (free : M.terminated = false) : Regular P L M :=
  ⟨grown.toShape, free, grown.scopes, grown.loops⟩

omit grown in
theorem Within.trans (first : Within P L M) (second : Within P M N) : Within P L N :=
  ⟨first.toShape.trans second.toShape, second.scopes.trans first.scopes,
    second.loops.trans first.loops⟩

theorem Within.reserve (count : Nat) : Within P L (M.reserve count) :=
  ⟨grown.toShape.reserve count, by simpa using grown.scopes, by simpa using grown.loops⟩

theorem Within.close (free : M.terminated = false) (t : Terminator) : Within P L (M.close t) :=
  ⟨grown.toShape.close free t, grown.scopes, grown.loops⟩

omit grown in
theorem Within.refl (inside : L.current < L.nextBlock) : Within P L L := ⟨.refl inside, rfl, rfl⟩

theorem Within.push (free : M.terminated = false) (i : Instruction) : Within P L (M.push i) :=
  ⟨grown.toShape.push free i, grown.scopes, grown.loops⟩

theorem Within.take (fits : P name) (number : Nat) : Within P L (M.take name number) :=
  ⟨grown.toShape.take fits number, grown.scopes, grown.loops⟩

theorem Within.ready (ready : Ready L) (free : M.terminated = false) : Ready M :=
  (grown.regular free).ready ready

theorem Within.orderly (ready : Ready L) : Orderly P L M where
  toShape := grown.toShape
  scoping := by
    obtain ⟨head, tail, form⟩ := List.exists_cons_of_ne_nil ready.lexical.nonempty
    exact ⟨[], head, tail, form, by rw [grown.scopes, form]; rfl, nodup_nil, by simp⟩
  loops := grown.loops

theorem Within.turn (free : M.terminated = false) (t : Terminator)
    (blank : Blank M block) (new : L.nextBlock ≤ block) :
    Regular P L (M.turn t block) where
  toShape := grown.toShape.turn free t new blank.made
  free := blank.terminated_turn t
  scopes := grown.scopes
  loops := grown.loops

/-- Going to a block that was reserved by the form. -/
theorem Within.goto (blank : Blank M block)
    (new : L.nextBlock ≤ block) : Regular P L (M.goto block) where
  toShape := grown.toShape.goto new blank.made
  free := blank.terminated_goto
  scopes := grown.scopes
  loops := grown.loops

end

theorem Orderly.refl (ready : Ready L) : Orderly P L L :=
  ⟨.refl ready.inside, .refl ready.lexical.nonempty, rfl⟩

theorem Orderly.trans (first : Orderly P L M) (second : Orderly P M N) : Orderly P L N where
  toShape := first.toShape.trans second.toShape
  scoping := first.scoping.trans first.used second.scoping second.used
  loops := second.loops.trans first.loops

theorem Orderly.bindName (ready : Ready L) {source internal : String}
    (unused : internal ∉ L.used) (fits : P internal) (number : Nat) :
    Orderly P L ((L.take internal number).scope source internal) where
  toShape := ((Shape.refl ready.inside).take fits number).scope source internal
  scoping := by
    obtain ⟨head, tail, form⟩ := List.exists_cons_of_ne_nil ready.lexical.nonempty
    refine ⟨[(source, internal)], head, tail, form, ?_, by simp, by simpa using unused⟩
    simp [Lowerer.scope, form, bindSource]
  loops := rfl

theorem Orderly.push (grown : Orderly P L M) (free : M.terminated = false)
    (i : Instruction) : Orderly P L (M.push i) where
  toShape := grown.toShape.push free i
  scoping := grown.scoping
  loops := grown.loops

theorem Orderly.ready (grown : Orderly P L M) (ready : Ready L)
    (free : M.terminated = false) : Ready M where
  free := free
  inside := grown.inside
  lexical := grown.scoping.wellScoped ready.lexical grown.used

end Scopes

/-! ## Lowering actions that grow regularly -/

section Actions

variable (P : String → Prop)

def LowersExpr (action : Lower ValueId) : Prop :=
  ∀ L id L', action L = .ok id L' → Ready L → Regular P L L' ∧ id < (L'.nextValue : Int)

/-- An action that lowers some expressions. -/
def LowersAll (action : Lower (List ValueId)) : Prop :=
  ∀ L ids L', action L = .ok ids L' → Ready L →
    Regular P L L' ∧ ∀ id ∈ ids, id < (L'.nextValue : Int)

/-- An action that lowers parts of an expression and has no value. -/
def LowersPart (action : Lower Unit) : Prop :=
  ∀ L u L', action L = .ok u L' → Ready L → Regular P L L'

/-- An action that lowers a block of statements in a scope of its own. -/
def LowersBlock (action : Lower Unit) : Prop :=
  ∀ L u L', action L = .ok u L' → Ready L → Within P L L'

/-- The same with the value of the block, if control reaches its end. -/
def LowersBranch (action : Lower (Option ValueId)) : Prop :=
  ∀ L result L', action L = .ok result L' → Ready L →
    Within P L L' ∧ ∀ id ∈ result, L'.terminated = false ∧ id < (L'.nextValue : Int)

def LowersStmt (action : Lower Unit) : Prop :=
  ∀ L u L', action L = .ok u L' → Ready L → Orderly P L L'

/-- An action that lowers statements and has their value, if control reaches the end. -/
def LowersTail (action : Lower (Option ValueId)) : Prop :=
  ∀ L result L', action L = .ok result L' → Ready L →
    Orderly P L L' ∧ ∀ id ∈ result, L'.terminated = false ∧ id < (L'.nextValue : Int)

end Actions

end Koschei.Lowering
