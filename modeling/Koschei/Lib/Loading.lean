import Koschei.Lib.Checks
import Koschei.Lib.Dictionary

/-!
# Loading a graph of modules

A module is read under a key and names the modules it needs. The keys of these are
resolved and loaded first; a key that is being loaded already stops the loading,
and a key that is loaded is not read again.

A loading depends on what it observes only: two loaders that agree on the modules
which are read and on the names which are resolved load the same graph.
-/

namespace Koschei.Lib

/-- How modules are read and their names resolved, and what is raised in a cycle, at a repeated name and
where the depth of the loading is exhausted. -/
structure Loader (K N P F : Type) where
  read : K → Except F P
  names : P → List N
  resolve : K → N → Except F K
  cyclic : List K → K → F
  repeated : N → F
  exhausted : F

/-- A module with the keys of what it needs. -/
structure Loaded (K N P : Type) where
  name : N
  program : P
  imports : List (N × K)

namespace Loader

variable {K N P F : Type} [DecidableEq K] [DecidableEq N]

section Definitions

variable (loader : Loader K N P F)

/-- The names of a module are resolved and loaded one after the other. -/
def loadImports (load : K → N → List (K × Loaded K N P) → Except F (List (K × Loaded K N P)))
    (importer : K) : List N → List N → List (N × K) → List (K × Loaded K N P) →
      Except F (List (N × K) × List (K × Loaded K N P))
  | _, [], imports, modules => .ok (imports, modules)
  | seen, name :: names, imports, modules => do
    raiseIf (name ∈ seen) (loader.repeated name)
    let target ← loader.resolve importer name
    let modules ← load target name modules
    loadImports load importer (name :: seen) names (imports ++ [(name, target)]) modules

/-- A key is loaded, with the modules it needs, into the modules that are loaded. -/
def load : Nat → List K → K → N → List (K × Loaded K N P) → Except F (List (K × Loaded K N P))
  | 0, _, _, _, _ => .error loader.exhausted
  | depth + 1, loading, key, name, modules => do
    raiseIf (key ∈ loading) (loader.cyclic loading key)
    if key ∈ modules.map fst then .ok modules else do
    let program ← loader.read key
    let (imports, modules) ← loader.loadImports (load depth (loading ++ [key])) key []
      (loader.names program) [] modules
    .ok (Dictionary.put modules key ⟨name, program, imports⟩)

end Definitions

variable {loader other : Loader K N P F} {modules after : List (K × Loaded K N P)}

/-! ## What a loading adds -/

/-- The modules that are loaded, with those they need among them. -/
structure Closed (loader : Loader K N P F) (modules : List (K × Loaded K N P)) : Prop where
  reads : ∀ key ∈ modules.map fst, ∃ program, loader.read key = .ok program ∧
    ∀ name ∈ loader.names program, ∃ target, loader.resolve key name = .ok target ∧
      target ∈ modules.map fst

/-- What a module leads to. -/
inductive Reaches (loader : Loader K N P F) (root : K) : K → Prop where
  | root : Reaches loader root root
  | step {key target : K} {program : P} {name : N} : Reaches loader root key →
      loader.read key = .ok program → name ∈ loader.names program →
      loader.resolve key name = .ok target → Reaches loader root target

/-- A loading into modules: nothing is lost, the key is loaded with modules it leads to only, and what was
closed is closed. -/
structure Grows (loader : Loader K N P F) (key : K) (modules after : List (K × Loaded K N P)) :
    Prop where
  kept : modules.map fst ⊆ after.map fst
  loaded : key ∈ after.map fst
  reached : ∀ other ∈ after.map fst, other ∈ modules.map fst ∨ loader.Reaches key other
  closed : loader.Closed modules → loader.Closed after

omit [DecidableEq K] [DecidableEq N] in
theorem Reaches.trans {first second third : K} (before : loader.Reaches first second)
    (after : loader.Reaches second third) : loader.Reaches first third := by
  induction after with
  | root => exact before
  | step _ read isName resolved ih => exact .step ih read isName resolved

omit [DecidableEq K] [DecidableEq N] in
theorem closed_nil : loader.Closed [] := ⟨forall_mem_nil _⟩

omit [DecidableEq K] [DecidableEq N] in
theorem Grows.refl {key : K} (loaded : key ∈ modules.map fst) : loader.Grows key modules modules :=
  ⟨Subset.refl _, loaded, fun _ => .inl, id⟩

omit [DecidableEq N] in
theorem mem_keys_put {key target : K} {module : Loaded K N P} :
    target ∈ (Dictionary.put modules key module).map fst ↔
      target = key ∨ target ∈ modules.map fst := by
  rw [keys_put]
  split
  · rename_i known
    exact ⟨.inr, fun either => either.elim (fun same => same ▸ known) id⟩
  · rw [mem_append, mem_singleton]
    exact or_comm

omit [DecidableEq N] in
theorem closed_put {key : K} {module : Loaded K N P} {program : P} (closed : loader.Closed modules)
    (ran : loader.read key = .ok program)
    (resolved : ∀ name ∈ loader.names program, ∃ target, loader.resolve key name = .ok target ∧
      target ∈ modules.map fst) : loader.Closed (Dictionary.put modules key module) := by
  refine ⟨fun other member => ?_⟩
  rcases mem_keys_put.mp member with rfl | known
  · refine ⟨program, ran, fun name isName => ?_⟩
    obtain ⟨target, found, among⟩ := resolved name isName
    exact ⟨target, found, mem_keys_put.mpr (.inr among)⟩
  · obtain ⟨program, ran, resolved⟩ := closed.reads other known
    refine ⟨program, ran, fun name isName => ?_⟩
    obtain ⟨target, found, among⟩ := resolved name isName
    exact ⟨target, found, mem_keys_put.mpr (.inr among)⟩

section Grows

variable {load : K → N → List (K × Loaded K N P) → Except F (List (K × Loaded K N P))}

omit [DecidableEq K] in
theorem loadImports_grows {importer : K} {seen names : List N} {imports result : List (N × K)}
    (grows : ∀ key name modules after, load key name modules = .ok after →
      loader.Grows key modules after)
    (ran : loader.loadImports load importer seen names imports modules = .ok (result, after)) :
    modules.map fst ⊆ after.map fst ∧ (loader.Closed modules → loader.Closed after) ∧
      (∀ name ∈ names, ∃ target, loader.resolve importer name = .ok target ∧
        target ∈ after.map fst) ∧
      ∀ other ∈ after.map fst, other ∈ modules.map fst ∨
        ∃ name ∈ names, ∃ target, loader.resolve importer name = .ok target ∧
          loader.Reaches target other := by
  induction names generalizing seen imports modules with
  | nil =>
    cases ran
    exact ⟨Subset.refl _, id, forall_mem_nil _, fun _ => .inl⟩
  | cons name names ih =>
    unfold loadImports at ran
    obtain ⟨_, -, ran⟩ := bind_eq_ok ran
    obtain ⟨target, resolved, ran⟩ := bind_eq_ok ran
    obtain ⟨between, loaded, ran⟩ := bind_eq_ok ran
    have first := grows target name modules between loaded
    obtain ⟨kept, closed, rest, reached⟩ := ih ran
    refine ⟨fun key known => kept (first.kept known), fun before => closed (first.closed before),
      forall_mem_cons.mpr ⟨⟨target, resolved, kept first.loaded⟩, rest⟩, ?_⟩
    intro other member
    rcases reached other member with earlier | ⟨later, isName, reaches⟩
    · rcases first.reached other earlier with known | here
      · exact .inl known
      · exact .inr ⟨name, mem_cons_self, target, resolved, here⟩
    · exact .inr ⟨later, mem_cons_of_mem _ isName, reaches⟩

end Grows

variable {depth : Nat} {loading : List K} {name : N}

theorem load_grows {key : K} (ran : loader.load depth loading key name modules = .ok after) :
    loader.Grows key modules after := by
  induction depth generalizing loading key name modules after with
  | zero => cases ran
  | succ depth ih =>
    unfold load at ran
    obtain ⟨_, -, ran⟩ := bind_eq_ok ran
    split at ran
    · rename_i known
      cases ran
      exact .refl known
    · obtain ⟨program, read, ran⟩ := bind_eq_ok ran
      obtain ⟨⟨imports, between⟩, loaded, ran⟩ := bind_eq_ok ran
      obtain ⟨kept, closed, resolved, reached⟩ :=
        loadImports_grows (fun key name modules after ran => ih ran) loaded
      cases ran
      refine ⟨fun other known => mem_keys_put.mpr (.inr (kept known)), mem_keys_put.mpr (.inl rfl), ?_,
        fun before => closed_put (closed before) read resolved⟩
      intro other member
      rcases mem_keys_put.mp member with rfl | among
      · exact .inr .root
      · rcases reached other among with known | ⟨name, isName, target, found, reaches⟩
        · exact .inl known
        · exact .inr (.trans (.step .root read isName found) reaches)

/-! ## What a loading depends on -/

omit [DecidableEq K] [DecidableEq N] in
/-- What the modules of a closed list lead to is among them. -/
theorem Closed.reaches {root key : K} (closed : loader.Closed modules)
    (loaded : root ∈ modules.map fst) (reached : loader.Reaches root key) :
    key ∈ modules.map fst := by
  induction reached with
  | root => exact loaded
  | step _ ran isName found ih =>
    obtain ⟨program, again, resolved⟩ := closed.reads _ ih
    cases ran.symm.trans again
    obtain ⟨target, same, among⟩ := resolved _ isName
    cases found.symm.trans same
    exact among

/-- Another loader reads the modules of a set as the first one does, and resolves their names to modules
of the set as the first one does, where that can read them. -/
structure Agrees (loader other : Loader K N P F) (set : K → Prop) : Prop where
  names : other.names = loader.names
  reads : ∀ key program, set key → loader.read key = .ok program → other.read key = .ok program
  resolves : ∀ key program name target, set key → loader.read key = .ok program →
    name ∈ loader.names program → loader.resolve key name = .ok target →
    (∃ program, loader.read target = .ok program) → other.resolve key name = .ok target ∧ set target

section Agreement

variable {set : K → Prop}
  {load load' : K → N → List (K × Loaded K N P) → Except F (List (K × Loaded K N P))}

omit [DecidableEq K] in
theorem loadImports_agrees (agrees : Agrees loader other set) {importer : K} {program : P}
    (inside : set importer) (read : loader.read importer = .ok program)
    (grows : ∀ key name modules after, load key name modules = .ok after →
      loader.Grows key modules after)
    (same : ∀ key name modules after, set key → loader.Closed modules →
      load key name modules = .ok after → load' key name modules = .ok after)
    {seen names : List N} {imports result : List (N × K)} (subset : names ⊆ loader.names program)
    (closed : loader.Closed modules)
    (ran : loader.loadImports load importer seen names imports modules = .ok (result, after)) :
    other.loadImports load' importer seen names imports modules = .ok (result, after) := by
  induction names generalizing seen imports modules with
  | nil => exact ran
  | cons name names ih =>
    obtain ⟨isName, rest⟩ := cons_subset.mp subset
    unfold loadImports at ran ⊢
    obtain ⟨_, fresh, ran⟩ := bind_eq_ok ran
    obtain ⟨target, resolved, ran⟩ := bind_eq_ok ran
    obtain ⟨between, loaded, ran⟩ := bind_eq_ok ran
    have first := grows target name modules between loaded
    obtain ⟨program', readable, -⟩ := (first.closed closed).reads target first.loaded
    obtain ⟨resolved', isInside⟩ :=
      agrees.resolves importer program name target inside read isName resolved ⟨program', readable⟩
    rw [bind_raiseIf (raiseIf_eq_ok fresh), bind_of_ok resolved',
      bind_of_ok (same target name modules between isInside closed loaded)]
    exact ih rest (first.closed closed) ran

end Agreement

/-- A loader that agrees with another one on a set loads the same modules from a key of the set. -/
theorem load_agrees {set : K → Prop} (agrees : Agrees loader other set)
    {key : K} (inside : set key) (closed : loader.Closed modules)
    (ran : loader.load depth loading key name modules = .ok after) :
    other.load depth loading key name modules = .ok after := by
  induction depth generalizing loading key name modules after with
  | zero => cases ran
  | succ depth ih =>
    unfold load at ran ⊢
    obtain ⟨_, acyclic, ran⟩ := bind_eq_ok ran
    rw [bind_raiseIf (raiseIf_eq_ok acyclic)]
    by_cases known : key ∈ modules.map fst
    · rw [if_pos known] at ran ⊢
      exact ran
    · rw [if_neg known] at ran ⊢
      obtain ⟨program, read, ran⟩ := bind_eq_ok ran
      obtain ⟨⟨imports, between⟩, loaded, ran⟩ := bind_eq_ok ran
      rw [bind_of_ok (agrees.reads key program inside read), agrees.names]
      have same := loadImports_agrees agrees inside read
        (fun key name modules after ran => load_grows ran)
        (fun key name modules after inside closed ran => ih inside closed ran)
        (Subset.refl _) closed loaded
      rw [bind_of_ok same]
      exact ran

/-- Two loadings that succeed load the same modules, when modules that both read are the same and names
that both resolve lead to the same modules. -/
theorem load_deterministic {loaderModules otherModules : List (K × Loaded K N P)}
    {root : K} (names : other.names = loader.names)
    (reads : ∀ key program program', loader.Reaches root key → loader.read key = .ok program →
      other.read key = .ok program' → program = program')
    (resolves : ∀ key name target target', loader.resolve key name = .ok target →
      other.resolve key name = .ok target' → target = target')
    (ran : loader.load depth [] root name [] = .ok loaderModules)
    (ran' : other.load depth [] root name [] = .ok otherModules) : loaderModules = otherModules := by
  have grown := load_grows ran'
  have closed := grown.closed closed_nil
  have agrees : Agrees loader other fun key => loader.Reaches root key ∧
      key ∈ otherModules.map fst := by
    refine ⟨names, ?_, ?_⟩
    · rintro key program ⟨reached, among⟩ read
      obtain ⟨program', read', -⟩ := closed.reads key among
      rw [reads key program program' reached read read']
      exact read'
    · rintro key program name target ⟨reached, among⟩ read isName resolved -
      obtain ⟨program', read', all⟩ := closed.reads key among
      have same := reads key program program' reached read read'
      obtain ⟨target', resolved', isAmong⟩ := all name (names ▸ same ▸ isName)
      have equal := resolves key name target target' resolved resolved'
      subst equal
      exact ⟨resolved', .step reached read isName resolved, isAmong⟩
  have again := load_agrees agrees ⟨.root, grown.loaded⟩ closed_nil ran
  exact ok.inj (again.symm.trans ran')

end Loader

end Koschei.Lib
