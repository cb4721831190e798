import Koschei.Lib.Names
import Mathlib.Data.List.Perm.Basic
import Mathlib.Data.List.Range

/-!
# A pool of workers behind a guard

The workers of a pool take the jobs `0, 1, 2, …` from one counter that they
share. A worker enters a guarded section for its job, leaves it, and commits the
result of the job to the store. The guard counts those inside in one number that
it shares with whoever waits for the pool, and refuses an entry above a limit; a
refusal ends everything.

A schedule is the order in which the workers move. Every schedule ends. When the
limit has room for all workers at once, none is refused and the store a schedule
ends with is the one of committing the jobs in their order, provided that commits
of two jobs commute. When it has no such room, some schedule is refused.
-/

namespace Koschei.Lib

/-- What a worker is doing. -/
inductive Phase where
  | idle
  | claimed (job : Nat)
  | inside (job : Nat)
  | returned (job : Nat)
  | done
  deriving DecidableEq

namespace Phase

/-- The job a worker holds. -/
def job : Phase → Option Nat
  | claimed job | inside job | returned job => some job
  | idle | done => none

/-- The moves of a worker up to the next job, or up to its end. -/
def moves : Phase → Nat
  | claimed _ => 4
  | inside _ => 3
  | returned _ => 2
  | idle => 1
  | done => 0

/-- What the guard counts of a worker. -/
def presence : Phase → Nat
  | inside _ => 1
  | idle | claimed _ | returned _ | done => 0

end Phase

/-- What a pool works on: the number of jobs, the limit of the guard, and what the result of a
job does to the store. -/
structure Work (Store : Type) where
  jobs : Nat
  limit : Nat
  commit : Nat → Store → Store

/-- The state of a pool. -/
structure Pool (Store : Type) where
  next : Nat
  depth : Nat
  phases : List Phase
  store : Store
  refused : Bool

namespace Pool

variable {Store : Type}

/-- The pool before the first move, in a guard that counts some already. -/
def start (base workers : Nat) (initial : Store) : Pool Store :=
  ⟨0, base, replicate workers .idle, initial, false⟩

/-- The next move of a worker, if it has one. -/
def step (work : Work Store) (pool : Pool Store) (worker : Nat) : Option (Pool Store) :=
  if pool.refused then none
  else
    match pool.phases[worker]? with
    | some .idle =>
      some { pool with
        next := pool.next + 1
        phases := pool.phases.set worker
          (if pool.next < work.jobs then .claimed pool.next else .done) }
    | some (.claimed job) =>
      if work.limit < pool.depth + 1 then
        some { pool with depth := pool.depth + 1, refused := true }
      else
        some { pool with
          depth := pool.depth + 1
          phases := pool.phases.set worker (.inside job) }
    | some (.inside job) =>
      some { pool with
        depth := pool.depth - 1
        phases := pool.phases.set worker (.returned job) }
    | some (.returned job) =>
      some { pool with
        store := work.commit job pool.store
        phases := pool.phases.set worker .idle }
    | some .done | none => none

/-- The pool after the moves of a schedule; none if a worker of the schedule cannot move. -/
def run (work : Work Store) : Pool Store → List Nat → Option (Pool Store)
  | pool, [] => some pool
  | pool, worker :: schedule =>
    match step work pool worker with
    | some pool => run work pool schedule
    | none => none

/-- No worker can move. -/
def Settled (work : Work Store) (pool : Pool Store) : Prop := ∀ worker, step work pool worker = none

/-- Every worker has ended. -/
def Joined (pool : Pool Store) : Prop := ∀ phase ∈ pool.phases, phase = .done

/-- The store after the jobs of a list. -/
def committed (work : Work Store) (initial : Store) (order : List Nat) : Store :=
  order.foldl (fun store job => work.commit job store) initial

/-- The jobs the workers hold. -/
def held (phases : List Phase) : List Nat := phases.filterMap Phase.job

/-- A number for each worker, added up. -/
def total (weight : Phase → Nat) : List Phase → Nat
  | [] => 0
  | phase :: phases => weight phase + total weight phases

theorem total_append (weight : Phase → Nat) (before after : List Phase) (phase : Phase) :
    total weight (before ++ phase :: after) =
      total weight before + weight phase + total weight after := by
  induction before with
  | nil => simp only [nil_append, total, Nat.zero_add]
  | cons first before ih => simp only [cons_append, total, ih, Nat.add_assoc]

theorem total_replicate (weight : Phase → Nat) (phase : Phase) (count : Nat) :
    total weight (replicate count phase) = count * weight phase := by
  induction count with
  | zero => simp only [List.replicate_zero, total, Nat.zero_mul]
  | succ count ih => rw [List.replicate_succ, total, ih, Nat.succ_mul, Nat.add_comm]

variable {worker base workers taken : Nat}

theorem exists_split {phases : List Phase} {phase : Phase} (found : phases[worker]? = some phase) :
    ∃ before after, phases = before ++ phase :: after ∧
      ∀ later, phases.set worker later = before ++ later :: after := by
  obtain ⟨small, rfl⟩ := List.getElem?_eq_some_iff.mp found
  refine ⟨phases.take worker, phases.drop (worker + 1), ?_, fun later => ?_⟩
  · rw [List.getElem_cons_drop, take_append_drop]
  · exact List.set_eq_take_append_cons_drop.trans (if_pos small)

/-- What a move is: a claim, an end, an entry, a refusal, a departure or a commit. -/
inductive Move (work : Work Store) (pool : Pool Store) (before after : List Phase) :
    Phase → Pool Store → Prop where
  | claim (more : pool.next < work.jobs) :
      Move work pool before after .idle { pool with
        next := pool.next + 1, phases := before ++ .claimed pool.next :: after }
  | finish (exceeded : work.jobs ≤ pool.next) :
      Move work pool before after .idle { pool with
        next := pool.next + 1, phases := before ++ .done :: after }
  | enter (job : Nat) (room : pool.depth + 1 ≤ work.limit) :
      Move work pool before after (.claimed job) { pool with
        depth := pool.depth + 1, phases := before ++ .inside job :: after }
  | refuse (job : Nat) (full : work.limit < pool.depth + 1) :
      Move work pool before after (.claimed job) { pool with
        depth := pool.depth + 1, refused := true }
  | leave (job : Nat) :
      Move work pool before after (.inside job) { pool with
        depth := pool.depth - 1, phases := before ++ .returned job :: after }
  | commit (job : Nat) :
      Move work pool before after (.returned job) { pool with
        store := work.commit job pool.store, phases := before ++ .idle :: after }

variable {work : Work Store} {pool later : Pool Store}

theorem step_cases (moved : step work pool worker = some later) :
    pool.refused = false ∧ ∃ before after phase, pool.phases = before ++ phase :: after ∧
      Move work pool before after phase later := by
  unfold step at moved
  split at moved
  · cases moved
  next calm =>
    refine ⟨eq_false_iff.mpr calm, ?_⟩
    cases found : pool.phases[worker]? with
    | none => simp only [found, reduceCtorEq] at moved
    | some phase =>
      obtain ⟨before, after, split, changed⟩ := exists_split found
      refine ⟨before, after, phase, split, ?_⟩
      cases phase <;> simp only [found, changed, some.injEq, reduceCtorEq] at moved
      case idle =>
          subst moved
          by_cases more : pool.next < work.jobs
          · rw [if_pos more]
            exact .claim more
          · rw [if_neg more]
            exact .finish (Nat.le_of_not_lt more)
      case claimed job =>
          split at moved
          next full =>
            cases moved
            exact .refuse job full
          next room =>
            cases moved
            exact .enter job (Nat.le_of_not_lt room)
      case inside job =>
          subst moved
          exact .leave job
      case returned job =>
          subst moved
          exact .commit job

/-! ## Every schedule ends -/

/-- A bound on the moves a pool still has. -/
def remaining (work : Work Store) (pool : Pool Store) : Nat :=
  4 * (work.jobs - pool.next) + total Phase.moves pool.phases + if pool.refused then 0 else 1

theorem remaining_step
    (moved : step work pool worker = some later) : remaining work later < remaining work pool := by
  obtain ⟨calm, before, after, phase, split, move⟩ := step_cases moved
  unfold remaining
  rw [split, total_append, calm]
  cases move <;> simp only [split, total_append, Phase.moves, calm] <;> grind

variable {schedule : List Nat}

theorem run_length (ran : run work pool schedule = some later) :
    schedule.length + remaining work later ≤ remaining work pool := by
  induction schedule generalizing pool with
  | nil =>
    cases ran
    exact (Nat.zero_add _).le
  | cons worker schedule ih =>
    unfold run at ran
    cases moved : step work pool worker with
    | none => simp only [moved, reduceCtorEq] at ran
    | some middle =>
      simp only [moved] at ran
      have shorter := remaining_step moved
      have rest := ih ran
      rw [length_cons]
      omega

theorem run_append {pool middle : Pool Store} {first second : List Nat}
    (ran : run work pool first = some middle) :
    run work pool (first ++ second) = run work middle second := by
  induction first generalizing pool with
  | nil =>
    cases ran
    rfl
  | cons worker first ih =>
    rw [cons_append, run]
    unfold run at ran
    cases moved : step work pool worker with
    | none => simp only [moved, reduceCtorEq] at ran
    | some next =>
      simp only [moved] at ran
      exact ih ran

theorem run_invariant {I : Pool Store → Prop}
    (preserved : ∀ pool later worker, I pool → step work pool worker = some later → I later)
    (here : I pool) (ran : run work pool schedule = some later) : I later := by
  induction schedule generalizing pool with
  | nil =>
    cases ran
    exact here
  | cons worker schedule ih =>
    unfold run at ran
    cases moved : step work pool worker with
    | none => simp only [moved, reduceCtorEq] at ran
    | some middle =>
      simp only [moved] at ran
      exact ih (preserved _ _ _ here moved) ran

/-! ## What a schedule keeps -/

/-- What holds of a pool that began in a guard counting `base`: the guard counts those inside and a
refused entry, the jobs taken are the committed and the held ones, and a worker ends when no job
is left. -/
structure Consistent (work : Work Store) (base workers : Nat) (initial : Store)
    (pool : Pool Store) : Prop where
  counted : pool.depth = base + total Phase.presence pool.phases + pool.refused.toNat
  shared : ∃ order, (order ++ held pool.phases).Perm (range (min pool.next work.jobs)) ∧
    pool.store = committed work initial order
  exhausted : .done ∈ pool.phases → work.jobs ≤ pool.next
  staffed : pool.phases.length = workers

theorem consistent_start (work : Work Store) (base workers : Nat) (initial : Store) :
    Consistent work base workers initial (start base workers initial) := by
  refine ⟨?_, ⟨[], ?_, rfl⟩, fun exceeded => ?_, length_replicate⟩
  · simp only [start, total_replicate, Phase.presence, Nat.mul_zero, Bool.toNat_false, Nat.add_zero]
  · simp only [start, held, List.filterMap_replicate, Phase.job, Nat.zero_min, List.range_zero,
      nil_append, List.Perm.refl]
  · cases List.eq_of_mem_replicate exceeded

theorem held_append (before after : List Phase) (phase : Phase) :
    held (before ++ phase :: after) = held before ++ (phase.job.toList ++ held after) := by
  unfold held
  rw [List.filterMap_append, filterMap_cons]
  cases phase.job <;> rfl

theorem committed_snoc (work : Work Store) (initial : Store) (order : List Nat) (job : Nat) :
    committed work initial (order ++ [job]) = work.commit job (committed work initial order) := by
  rw [committed, foldl_append]
  rfl

variable {initial : Store}

theorem consistent_step (here : Consistent work base workers initial pool)
    (moved : step work pool worker = some later) : Consistent work base workers initial later := by
  obtain ⟨calm, before, after, phase, split, move⟩ := step_cases moved
  obtain ⟨counted, ⟨order, shared, store⟩, exhausted, staffed⟩ := here
  rw [split, total_append, calm, Bool.toNat_false, Nat.add_zero] at counted
  rw [split, held_append] at shared
  rw [split] at exhausted staffed
  have ended : ∀ next, next ≠ .done → .done ∈ before ++ next :: after → work.jobs ≤ pool.next := by
    intro next other exceeded
    refine exhausted ?_
    simp only [mem_append, mem_cons] at exceeded ⊢
    exact exceeded.imp id fun after => .inr (after.resolve_left other.symm)
  have staff : ∀ next, (before ++ next :: after).length = workers := by
    intro next
    simpa only [length_append, length_cons] using staffed
  have counts : ∀ depth next, pool.depth + next.presence = depth + phase.presence →
      depth = base + total Phase.presence (before ++ next :: after) + pool.refused.toNat := by
    intro depth next changed
    rw [total_append, calm, Bool.toNat_false]
    omega
  cases move with
  | claim more =>
    refine ⟨counts _ _ rfl, ⟨order, ?_, store⟩, fun exceeded => ?_, staff _⟩
    · rw [Nat.min_eq_left more.le] at shared
      rw [held_append, Nat.min_eq_left more, List.range_succ]
      have moved : (order ++ (held before ++ pool.next :: held after)).Perm
          (order ++ (held before ++ held after) ++ [pool.next]) := by
        rw [append_assoc]
        exact (List.perm_middle.trans (List.perm_append_singleton _ _).symm).append_left order
      exact moved.trans (shared.append_right _)
    · exact absurd (ended _ (by nofun) exceeded) (Nat.not_le_of_lt more)
  | finish exceeded =>
    refine ⟨counts _ _ rfl, ⟨order, ?_, store⟩, fun _ => Nat.le_succ_of_le exceeded, staff _⟩
    rw [Nat.min_eq_right exceeded] at shared
    rw [Nat.min_eq_right (Nat.le_succ_of_le exceeded), held_append]
    exact shared
  | enter job room =>
    refine ⟨counts _ _ rfl, ⟨order, ?_, store⟩, fun exceeded => ended _ (by nofun) exceeded, staff _⟩
    rwa [held_append]
  | refuse job full =>
    refine ⟨?_, ⟨order, ?_, store⟩, ?_, ?_⟩
    · rw [split, total_append, counted, Bool.toNat_true]
    · rwa [split, held_append]
    · rwa [split]
    · rwa [split]
  | leave job =>
    refine ⟨counts _ _ ?_, ⟨order, ?_, store⟩, fun exceeded => ended _ (by nofun) exceeded, staff _⟩
    · have inhabited : 1 ≤ pool.depth := by
        rw [counted, Phase.presence]
        omega
      exact (Nat.sub_add_cancel inhabited).symm
    · rwa [held_append]
  | commit job =>
    refine ⟨counts _ _ rfl, ⟨order ++ [job], ?_, ?_⟩, fun exceeded => ended _ (by nofun) exceeded, staff _⟩
    · rw [held_append, append_assoc]
      have together : (job :: (held before ++ held after)).Perm
          (held before ++ job :: held after) := List.perm_middle.symm
      exact (together.append_left order).trans shared
    · rw [committed_snoc, ← store]

/-! ## A guard with room for all -/

theorem total_presence_le (phases : List Phase) : total Phase.presence phases ≤ phases.length := by
  induction phases with
  | nil => exact Nat.le_refl 0
  | cons phase phases ih =>
    have alone : phase.presence ≤ 1 := by
      cases phase <;> simp only [Phase.presence, Nat.le_refl, Nat.zero_le]
    rw [total, length_cons]
    omega

theorem not_refused (room : base + workers ≤ work.limit)
    (ran : run work (start base workers initial) schedule = some pool) : pool.refused = false := by
  refine (run_invariant (I := fun pool =>
    Consistent work base workers initial pool ∧ pool.refused = false) ?_
    ⟨consistent_start work base workers initial, rfl⟩ ran).2
  rintro pool later worker ⟨here, -⟩ moved
  refine ⟨consistent_step here moved, ?_⟩
  obtain ⟨calm, before, after, phase, split, move⟩ := step_cases moved
  have counted := here.counted
  have staffed := here.staffed
  rw [split, total_append, calm, Bool.toNat_false] at counted
  rw [split, length_append, length_cons] at staffed
  have first := total_presence_le before
  have last := total_presence_le after
  cases move with
  | refuse job full =>
    rw [Phase.presence] at counted
    omega
  | claim | finish | enter | leave | commit => exact calm

/-- A pool that cannot move has been refused an entry, or all its workers have ended. -/
theorem joined_of_settled (settled : Settled work pool)
    (calm : pool.refused = false) : Joined pool := by
  intro phase member
  obtain ⟨worker, small, rfl⟩ := mem_iff_getElem.mp member
  have still := settled worker
  unfold step at still
  rw [if_neg (by rw [calm]; nofun), List.getElem?_eq_getElem small] at still
  revert still
  cases pool.phases[worker] with
  | done => exact fun _ => rfl
  | claimed job =>
    intro still
    simp only at still
    split at still <;> cases still
  | idle | inside | returned => exact fun still => nomatch still

/-- The store of a pool whose workers have ended is the one of the jobs in their order. -/
theorem store_of_joined
    (commute : ∀ first second store, work.commit first (work.commit second store) =
      work.commit second (work.commit first store))
    (here : Consistent work base workers initial pool) (manned : 0 < workers)
    (joined : Joined pool) : pool.store = committed work initial (range work.jobs) := by
  obtain ⟨-, ⟨order, shared, store⟩, exhausted, staffed⟩ := here
  have exceeded : work.jobs ≤ pool.next := by
    refine exhausted ?_
    cases phases : pool.phases with
    | nil =>
      rw [phases, length_nil] at staffed
      omega
    | cons phase rest =>
      rw [joined phase (phases ▸ mem_cons_self)]
      exact mem_cons_self
  have free : held pool.phases = [] := by
    refine List.filterMap_eq_nil_iff.mpr fun phase member => ?_
    rw [joined phase member]
    rfl
  rw [free, append_nil, Nat.min_eq_right exceeded] at shared
  rw [store]
  have : RightCommutative fun store job => work.commit job store :=
    ⟨fun store first second => commute second first store⟩
  exact shared.foldl_eq initial

/-! ## A guard without room for all -/

theorem getElem?_middle (before after : List Phase) (phase : Phase) :
    (before ++ phase :: after)[before.length]? = some phase := by
  rw [List.getElem?_append_right (Nat.le_refl _), Nat.sub_self, List.getElem?_cons_zero]

theorem set_middle (before after : List Phase) (phase later : Phase) :
    (before ++ phase :: after).set before.length later = before ++ later :: after := by
  rw [List.set_append_right _ _ (Nat.le_refl _), Nat.sub_self, List.set_cons_zero]

theorem step_claim (work : Work Store) (pool : Pool Store) (before after : List Phase)
    (calm : pool.refused = false) (phases : pool.phases = before ++ .idle :: after)
    (more : pool.next < work.jobs) :
    step work pool before.length = some { pool with
      next := pool.next + 1, phases := before ++ .claimed pool.next :: after } := by
  unfold step
  rw [if_neg (by rw [calm]; nofun), phases, getElem?_middle]
  simp only [set_middle, if_pos more]

theorem step_enter (work : Work Store) (pool : Pool Store) (before after : List Phase) {job : Nat}
    (calm : pool.refused = false) (phases : pool.phases = before ++ .claimed job :: after) :
    step work pool before.length = some (if work.limit < pool.depth + 1 then
      { pool with depth := pool.depth + 1, refused := true }
    else { pool with depth := pool.depth + 1, phases := before ++ .inside job :: after }) := by
  unfold step
  rw [if_neg (by rw [calm]; nofun), phases, getElem?_middle]
  simp only [set_middle]
  split <;> simp only

/-- The pool in which the first workers are inside and the others have not moved. -/
def filled (base taken rest : Nat) (initial : Store) : Pool Store :=
  ⟨taken, base + taken, (range taken).map .inside ++ replicate rest .idle, initial, false⟩

/-- The same pool with the next worker before the guard. -/
def waiting (base taken rest : Nat) (initial : Store) : Pool Store :=
  ⟨taken + 1, base + taken, (range taken).map .inside ++ .claimed taken ::
    replicate rest .idle, initial, false⟩

/-- The same pool with the next worker refused. -/
def overfull (base taken rest : Nat) (initial : Store) : Pool Store :=
  { waiting base taken rest initial with depth := base + (taken + 1), refused := true }

theorem step_filled (base rest : Nat) (initial : Store) (more : taken < work.jobs) :
    step work (filled base taken (rest + 1) initial) taken =
      some (waiting base taken rest initial) := by
  have moved := step_claim work (filled base taken (rest + 1) initial)
    ((range taken).map .inside) (replicate rest .idle) rfl rfl more
  rwa [length_map, List.length_range] at moved

theorem step_waiting (base rest taken : Nat) (initial : Store) :
    step work (waiting base taken rest initial) taken =
      some (if work.limit < base + (taken + 1) then overfull base taken rest initial
        else filled base (taken + 1) rest initial) := by
  have moved := step_enter work (waiting base taken rest initial)
    ((range taken).map .inside) (replicate rest .idle) rfl rfl
  rw [length_map, List.length_range] at moved
  rw [moved]
  congr 2
  simp only [filled, waiting, List.range_succ, map_append, map_cons, map_nil,
    append_assoc, singleton_append, Nat.add_assoc]

/-- The workers can enter one after the other while there is room. -/
theorem exists_filled (base : Nat) (initial : Store)
    (busy : workers ≤ work.jobs) {taken rest : Nat} (all : taken + rest = workers)
    (room : taken = 0 ∨ base + taken ≤ work.limit) :
    ∃ schedule, run work (start base workers initial) schedule =
      some (filled base taken rest initial) := by
  induction taken generalizing rest with
  | zero =>
    refine ⟨[], ?_⟩
    rw [Nat.zero_add] at all
    subst all
    rfl
  | succ taken ih =>
    have fits : base + (taken + 1) ≤ work.limit := room.resolve_left (Nat.succ_ne_zero taken)
    obtain ⟨schedule, ran⟩ := ih (show taken + (rest + 1) = workers by omega) (.inr (by omega))
    refine ⟨schedule ++ [taken, taken], ?_⟩
    rw [run_append ran, run, step_filled base rest initial (by omega)]
    simp only [run, step_waiting, if_neg (Nat.not_lt_of_le fits)]

theorem exists_refused (work : Work Store) (initial : Store)
    (busy : workers ≤ work.jobs) (manned : 0 < workers) (full : work.limit < base + workers) :
    ∃ schedule pool, run work (start base workers initial) schedule = some pool ∧
      pool.refused = true := by
  obtain ⟨rest, all⟩ : ∃ rest, (work.limit - base) + (rest + 1) = workers :=
    ⟨workers - (work.limit - base) - 1, by omega⟩
  obtain ⟨schedule, ran⟩ := exists_filled base initial busy all (by omega)
  refine ⟨schedule ++ [work.limit - base, work.limit - base],
    overfull base (work.limit - base) rest initial, ?_, rfl⟩
  have above : work.limit < base + (work.limit - base + 1) := by omega
  rw [run_append ran, run, step_filled base rest initial (by omega)]
  simp only [run, step_waiting, if_pos above]

end Pool

end Koschei.Lib
