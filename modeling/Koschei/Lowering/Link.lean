import Koschei.Lowering.Position

/-!
# Scopes and the flat binding table

The interpreter resolves a name in a stack of scopes; lowered code reads one flat
table under a name that was fixed when it was lowered. `Linked` is what the two
have in common at every moment of a run: scope by scope, the cell a source name
has in the stack is the cell its binding name has in the table. The scopes of the
lowerer may be cut differently from those of the interpreter (a `for` loop has
one scope there and two here), so the link is told along a cutting `Γ`.

`Keeps` is the frame condition of a piece of code: the registers made before it,
the names that were in use and could not be reached, and the objects that existed
are as they were.
-/

namespace Koschei.Lowering

open Lib Ast Mir Filter Relation

variable {σ : Type}

/-- Scopes that map source names to binding names. -/
abbrev Scoping := List (List (String × String))

/-- A source name with its cell, and the binding name under which the frame has it. -/
def Denotes (frame : Frame) (entry : String × Cell) (link : String × String) : Prop :=
  entry.1 = link.1 ∧ frame.bindings link.2 = some entry.2

/-- The state of the interpreter and the frame and store of the executor say the same. -/
structure Linked (finished : Lowerer) (Γ : Scoping) (state : State σ) (frame : Frame)
    (store : Store σ) : Prop where
  scopes : Forall₂ (Forall₂ (Denotes frame)) state.scopes Γ
  host : store.host = state.store.host
  depth : store.depth = state.store.depth
  unbound : ∀ name, name ∉ finished.used → frame.bindings name = none

/-- What a piece of code that starts at `L` leaves as it was. -/
structure Keeps (L : Lowerer) (frame : Frame) (store : Store σ) (frame' : Frame)
    (store' : Store σ) : Prop where
  values : ∀ id < (L.nextValue : Int), frame'.values id = frame.values id
  hidden : ∀ name ∈ L.used, name ∉ visible L → frame'.bindings name = frame.bindings name
  objects : store.objects <+: store'.objects

namespace Keeps

variable {L M : Lowerer} {frame frame' frame'' : Frame} {store store' store'' : Store σ}

theorem refl : Keeps L frame store frame store :=
  ⟨fun _ _ => rfl, fun _ _ _ => rfl, prefix_rfl⟩

/-- Two pieces of code, the second of which starts at a later state. -/
theorem trans {P : String → Prop} (first : Keeps L frame store frame' store')
    (grown : Orderly P L M) (second : Keeps M frame' store' frame'' store'') :
    Keeps L frame store frame'' store'' where
  values id low := by
    rw [second.values id (low.trans_le (Int.ofNat_le.mpr grown.values)), first.values id low]
  hidden name old hides := by
    rw [second.hidden name (grown.used old) fun seen =>
      hides (grown.scoping.visible_of_used old seen), first.hidden name old hides]
  objects := first.objects.trans second.objects

section

variable (keeps : Keeps L frame store frame' store')

include keeps

/-- A register that is made later. -/
theorem set {id : ValueId} (high : (L.nextValue : Int) ≤ id) (value : Value) :
    Keeps L frame store (frame'.set id value) store' where
  values other low := by
    have differs : other ≠ id := ne_of_lt (low.trans_le high)
    simp only [Frame.set, update_of_ne differs]
    exact keeps.values other low
  hidden := keeps.hidden
  objects := keeps.objects

/-- A binding that was not in use, or could be reached. -/
theorem bind {name : String} (apart : name ∈ L.used → name ∈ visible L) (cell : Cell) :
    Keeps L frame store (frame'.bind name cell) store' where
  values := keeps.values
  hidden other old hides := by
    have differs : other ≠ name := by
      rintro rfl
      exact hides (apart old)
    simp only [Frame.bind, update_of_ne differs]
    exact keeps.hidden other old hides
  objects := keeps.objects

theorem later (objects : store'.objects <+: store''.objects) : Keeps L frame store frame' store'' :=
  ⟨keeps.values, keeps.hidden, keeps.objects.trans objects⟩

end

/-- The condition depends on the registers, the names in use and the scopes only. -/
theorem congr (keeps : Keeps M frame store frame' store') (values : L.nextValue ≤ M.nextValue)
    (used : L.used ⊆ M.used) (scopes : visible M ⊆ visible L) :
    Keeps L frame store frame' store' where
  values id low := keeps.values id (low.trans_le (Int.ofNat_le.mpr values))
  hidden name old hides := keeps.hidden name (used old) fun seen => hides (scopes seen)
  objects := keeps.objects

end Keeps

/-! ## Resolving names -/

variable {entries : List (String × Cell)} {links : List (String × String)} {frame : Frame}

theorem lookup_linked (linked : Forall₂ (Denotes frame) entries links) (name : String) :
    entries.lookup name = (links.lookup name).bind frame.bindings := by
  induction linked with
  | nil => rfl
  | cons first rest ih =>
    rename_i entry link entries links
    obtain ⟨source, cell⟩ := entry
    obtain ⟨source', internal⟩ := link
    obtain ⟨rfl, bound⟩ := first
    by_cases same : name = source
    · subst same
      simpa using bound.symm
    · have differs : (name == source) = false := by simpa using same
      simpa [lookup_cons, differs] using ih

variable {name internal : String}

theorem bound_of_linked (linked : Forall₂ (Denotes frame) entries links)
    (found : links.lookup name = some internal) : ∃ cell, frame.bindings internal = some cell := by
  induction linked with
  | nil => cases found
  | cons first rest ih =>
    rename_i entry link entries links
    obtain ⟨source', internal'⟩ := link
    by_cases same : name = source'
    · subst same
      simp only [lookup_cons, beq_self_eq_true, some.injEq] at found
      subst found
      exact ⟨entry.2, first.2⟩
    · have differs : (name == source') = false := by simpa using same
      simp only [lookup_cons, differs] at found
      exact ih found

theorem denotes_congr {frame' : Frame} (linked : Forall₂ (Denotes frame) entries links)
    (same : ∀ link ∈ links, frame'.bindings link.2 = frame.bindings link.2) :
    Forall₂ (Denotes frame') entries links := by
  induction linked with
  | nil => exact .nil
  | cons first rest ih =>
    refine .cons ⟨first.1, ?_⟩ (ih (forall_mem_cons.mp same).2)
    rw [same _ mem_cons_self]
    exact first.2

variable {scopes : List Scope}

theorem scopes_congr {frame' : Frame} {Γ : Scoping}
    (linked : Forall₂ (Forall₂ (Denotes frame)) scopes Γ)
    (same : ∀ link ∈ Γ.flatten, frame'.bindings link.2 = frame.bindings link.2) :
    Forall₂ (Forall₂ (Denotes frame')) scopes Γ := by
  induction linked with
  | nil => exact .nil
  | cons first rest ih =>
    refine .cons (denotes_congr first fun link inside => same link ?_)
      (ih fun link inside => same link ?_)
    · simp [inside]
    · simp only [flatten_cons, mem_append]
      exact .inr inside

/-! ## Overwriting a name -/

theorem mem_of_lookup (found : links.lookup name = some internal) : (name, internal) ∈ links := by
  obtain ⟨before, after, rfl, -⟩ := lookup_eq_some_iff.mp found
  simp

variable {value : Value} {cell : Cell} {entries : Scope}

theorem updateScope_linked (linked : Forall₂ (Denotes frame) entries links)
    (nodup : (links.map snd).Nodup) (looked : links.lookup name = some internal)
    (bound : frame.bindings internal = some cell) :
    ∃ entries', updateScope name value entries = some entries' ∧
      Forall₂ (Denotes (frame.bind internal ⟨value, cell.isMutable⟩)) entries' links := by
  induction linked with
  | nil => cases looked
  | cons first rest ih =>
    rename_i entry link entries links
    obtain ⟨source, cell'⟩ := entry
    obtain ⟨source', internal'⟩ := link
    obtain ⟨rfl, bound'⟩ := first
    simp only [map_cons, nodup_cons] at nodup
    by_cases same : name = source
    · subst same
      simp only [lookup_cons, beq_self_eq_true, some.injEq] at looked
      subst looked
      obtain rfl := some.inj (bound'.symm.trans bound)
      refine ⟨(name, ⟨value, cell'.isMutable⟩) :: entries, by simp [updateScope],
        .cons ⟨rfl, by simp [Frame.bind]⟩ (denotes_congr rest fun link inside => ?_)⟩
      have differs : link.2 ≠ internal' := by
        rintro rfl
        exact nodup.1 (mem_map_of_mem inside)
      simp [Frame.bind, update_of_ne differs]
    · have other : (name == source) = false := by simpa using same
      simp only [lookup_cons, other] at looked
      obtain ⟨entries', updated, linked'⟩ := ih nodup.2 looked
      have differs : internal' ≠ internal := by
        rintro rfl
        exact nodup.1 (mem_map_of_mem (mem_of_lookup looked))
      refine ⟨(source, cell') :: entries', by simp [updateScope, other, updated],
        .cons ⟨rfl, ?_⟩ linked'⟩
      simpa [Frame.bind, update_of_ne differs] using bound'

theorem updateScope_missing
    (missing : entries.lookup name = none) : updateScope name value entries = none := by
  induction entries with
  | nil => rfl
  | cons entry entries ih =>
    obtain ⟨source, cell⟩ := entry
    by_cases same : name = source
    · subst same
      simp at missing
    · have other : (name == source) = false := by simpa using same
      simp only [lookup_cons, other] at missing
      simp [updateScope, other, ih missing]

/-- The same for a stack of scopes: the innermost that has the name changes. -/
theorem updateScopes_linked {Γ : Scoping}
    (linked : Forall₂ (Forall₂ (Denotes frame)) scopes Γ)
    (nodup : (Γ.flatten.map snd).Nodup) (looked : Γ.flatten.lookup name = some internal)
    (bound : frame.bindings internal = some cell) :
    ∃ scopes', updateScopes name value scopes = some scopes' ∧
      Forall₂ (Forall₂ (Denotes (frame.bind internal ⟨value, cell.isMutable⟩)))
        scopes' Γ := by
  induction linked with
  | nil => cases looked
  | cons first rest ih =>
    rename_i scope links scopes Γ
    simp only [flatten_cons, map_append, nodup_append] at nodup
    obtain ⟨nodup, nodup', apart⟩ := nodup
    rw [flatten_cons, lookup_append] at looked
    cases known : links.lookup name with
    | some internal' =>
      rw [known, Option.some_or, some.injEq] at looked
      subst looked
      obtain ⟨scope', updated, linked'⟩ := updateScope_linked first nodup known bound
      refine ⟨scope' :: scopes, by simp [updateScopes, updated],
        .cons linked' (scopes_congr rest fun link inside => ?_)⟩
      have differs : link.2 ≠ internal' := fun same =>
        apart _ (mem_map_of_mem (mem_of_lookup known)) _ (mem_map_of_mem inside) same.symm
      simp [Frame.bind, update_of_ne differs]
    | none =>
      rw [known, none_or] at looked
      obtain ⟨scopes', updated, linked'⟩ := ih nodup' looked
      have missing : scope.lookup name = none := by rw [lookup_linked first, known]; rfl
      refine ⟨scope :: scopes', by simp [updateScopes, updateScope_missing missing, updated],
        .cons (denotes_congr first fun link inside => ?_) linked'⟩
      have differs : link.2 ≠ internal := apart _ (mem_map_of_mem inside) _
        (mem_map_of_mem (mem_of_lookup looked))
      simp [Frame.bind, update_of_ne differs]

namespace Linked

variable {finished L : Lowerer} {Γ : Scoping} {state : State σ} {frame frame' : Frame}
  {store store' : Store σ} {head : List (String × String)} {tail : Scoping}

section

variable (linked : Linked finished Γ state frame store)

include linked

theorem flat : Forall₂ (Denotes frame) state.scopes.flatten Γ.flatten :=
  List.rel_flatten linked.scopes

section

variable (cut : Γ.flatten = L.scopes.flatten)

include cut

theorem resolve (name : String) :
    Ast.resolve state.scopes name = (L.scopes.flatten.lookup name).bind frame.bindings := by
  rw [Ast.resolve, lookup_linked linked.flat, cut]

variable {name internal : String}

theorem binding (found : Ast.resolve state.scopes name = some cell) :
    ∃ internal, L.scopes.flatten.lookup name = some internal ∧
      bindingName L name = internal ∧ frame.bindings internal = some cell := by
  rw [linked.resolve cut] at found
  obtain ⟨internal, looked, bound⟩ := bind_eq_some_iff.mp found
  exact ⟨internal, looked, by simp [bindingName, looked], bound⟩

theorem unresolved
    (missing : Ast.resolve state.scopes name = none) : bindingName L name = name := by
  rw [linked.resolve cut] at missing
  cases looked : L.scopes.flatten.lookup name with
  | none => simp [bindingName, looked]
  | some internal =>
    obtain ⟨cell, bound⟩ := bound_of_linked linked.flat (cut ▸ looked)
    rw [looked, bind_some, bound] at missing
    cases missing

end

/-- Registers do not matter. -/
theorem set (id : ValueId) (value : Value) : Linked finished Γ state (frame.set id value) store :=
  ⟨linked.scopes, linked.host, linked.depth, linked.unbound⟩

theorem bind (hides : name ∉ Γ.flatten.map snd) (used : name ∈ finished.used) (cell : Cell) :
    Linked finished Γ state (frame.bind name cell) store where
  scopes := by
    refine scopes_congr linked.scopes fun link inside => ?_
    have differs : link.2 ≠ name := by
      rintro rfl
      exact hides (mem_map_of_mem inside)
    simp [Frame.bind, update_of_ne differs]
  host := linked.host
  depth := linked.depth
  unbound other unused := by
    have differs : other ≠ name := by
      rintro rfl
      exact unused used
    simp only [Frame.bind, update_of_ne differs]
    exact linked.unbound other unused

omit linked in
theorem define (linked : Linked finished (head :: tail) state frame store)
    {source internal : String} (hides : internal ∉ (head :: tail).flatten.map snd)
    (used : internal ∈ finished.used) (cell : Cell) :
    Linked finished (((source, internal) :: head) :: tail)
      { state with scopes := bindName source cell state.scopes } (frame.bind internal cell)
      store where
  scopes := by
    have bound := (linked.bind hides used cell).scopes
    obtain ⟨scope, scopes, first, rest, same⟩ := List.forall₂_cons_right_iff.mp bound
    rw [same]
    exact .cons (.cons ⟨rfl, by simp [Frame.bind]⟩ first) rest
  host := linked.host
  depth := linked.depth
  unbound := (linked.bind hides used cell).unbound

theorem assign (nodup : (Γ.flatten.map snd).Nodup) (looked : Γ.flatten.lookup name = some internal)
    (bound : frame.bindings internal = some cell) (value : Value) :
    Linked finished Γ
      { state with scopes := (updateScopes name value state.scopes).getD state.scopes }
      (frame.bind internal ⟨value, cell.isMutable⟩) store where
  scopes := by
    obtain ⟨scopes', updated, linked'⟩ := updateScopes_linked linked.scopes nodup looked bound
    rw [updated]
    exact linked'
  host := linked.host
  depth := linked.depth
  unbound other unused := by
    have differs : other ≠ internal := by
      rintro rfl
      rw [linked.unbound other unused] at bound
      cases bound
    simp only [Frame.bind, update_of_ne differs]
    exact linked.unbound other unused

theorem enter : Linked finished ([] :: Γ) { state with scopes := [] :: state.scopes } frame store :=
  ⟨.cons .nil linked.scopes, linked.host, linked.depth, linked.unbound⟩

omit linked in
/-- The innermost scope is left. -/
theorem leave (linked : Linked finished (head :: tail) state frame store) :
    Linked finished tail { state with scopes := state.scopes.tail } frame store where
  scopes := by
    obtain ⟨scope, scopes, -, rest, same⟩ := List.forall₂_cons_right_iff.mp linked.scopes
    rw [same]
    exact rest
  host := linked.host
  depth := linked.depth
  unbound := linked.unbound

theorem later {store₁ : Store σ}
    (host : store'.host = store₁.host) (depth : store'.depth = store₁.depth) :
    Linked finished Γ { state with store := store₁ } frame store' :=
  ⟨linked.scopes, host, depth, linked.unbound⟩

end

end Linked

end Koschei.Lowering
