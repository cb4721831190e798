import Koschei.Types.Rendering
import Mathlib.Data.List.Sort

/-!
# Canonical types and their unions

`union_type` flattens its arguments, keeps one option for each text and puts the
texts in order, so what it makes is canonical again. As an operation on lists of
canonical types it is a join as long as the options it collects have a text of
their own: where a type variable and a named type are spelled alike, the option
that comes first is the one that stays.
-/

namespace Koschei.TypeNode

mutual
/-- The unions are as `union_type` makes them: two or more options, none of them unknown or a
union, in the order of their texts. -/
def Canonical : TypeNode → Prop
  | .unknown | .named _ | .variable _ => True
  | .generic _ arguments => CanonicalAll arguments
  | .union options => 2 ≤ options.length ∧ (∀ option ∈ options, option.isLeaf = true) ∧
      (options.Pairwise fun a b => a.render < b.render) ∧ CanonicalAll options

def CanonicalAll : List TypeNode → Prop
  | [] => True
  | node :: nodes => Canonical node ∧ CanonicalAll nodes
end

theorem canonicalAll_iff (nodes : List TypeNode) :
    CanonicalAll nodes ↔ ∀ node ∈ nodes, Canonical node := by
  induction nodes with
  | nil => simp [CanonicalAll]
  | cons node nodes ih => simp [CanonicalAll, ih]

/-- The options have a text of their own. -/
def Apart (options : List TypeNode) : Prop :=
  ∀ a ∈ options, ∀ b ∈ options, a.render = b.render → a = b

variable {options xs ys types : List TypeNode}

theorem apart_of_pairwise
    (sorted : options.Pairwise fun a b => a.render < b.render) : Apart options := by
  intro a first b second same
  induction sorted with
  | nil => cases first
  | cons below _ ih =>
    rcases mem_cons.mp first with rfl | early
    · rcases mem_cons.mp second with rfl | late
      · rfl
      · exact absurd same (ne_of_lt (below b late))
    · rcases mem_cons.mp second with rfl | late
      · exact absurd same.symm (ne_of_lt (below a early))
      · exact ih early late

/-! ## The options of a union -/

/-- One option for each text, in the order of the texts. -/
def listed (options : List TypeNode) : List TypeNode :=
  (dedupByText options).mergeSort fun a b => decide (a.render ≤ b.render)

theorem unionType_eq_listed (types : List TypeNode) :
    unionType types = ofOptions (listed (collected types)) :=
  unionType_eq types

variable {node option : TypeNode}

theorem mem_of_mem_listed (member : node ∈ listed options) : node ∈ options :=
  mem_of_mem_dedupByText (mem_mergeSort.mp member)

theorem mem_listed (apart : Apart options) : node ∈ listed options ↔ node ∈ options := by
  refine ⟨mem_of_mem_listed, fun member => mem_mergeSort.mpr ?_⟩
  obtain ⟨kept, inKept, same⟩ := exists_mem_dedupByText member
  rwa [apart kept (mem_of_mem_dedupByText inKept) node member same] at inKept

theorem dedupByText_pairwise (types : List TypeNode) :
    (dedupByText types).Pairwise fun a b => a.render ≠ b.render := by
  have general : ∀ (types start : List TypeNode), (start.Pairwise fun a b => a.render ≠ b.render) →
      (types.foldl (fun (kept : List TypeNode) node =>
        if kept.any fun other => other.render == node.render then kept else kept ++ [node])
        start).Pairwise fun a b => a.render ≠ b.render := by
    intro types
    induction types with
    | nil => exact fun _ apart => apart
    | cons node types ih =>
      intro start apart
      rw [foldl_cons]
      apply ih
      split
      · exact apart
      · next fresh =>
        rw [List.pairwise_append]
        refine ⟨apart, pairwise_singleton _ _, ?_⟩
        intro a early b last
        rw [mem_singleton.mp last]
        intro same
        exact fresh (any_eq_true.mpr ⟨a, early, beq_iff_eq.mpr same⟩)
  exact general types [] List.Pairwise.nil

theorem listed_pairwise (options : List TypeNode) :
    (listed options).Pairwise fun a b => a.render < b.render := by
  have sorted : (listed options).Pairwise fun a b => a.render ≤ b.render := by
    refine (List.pairwise_mergeSort ?_ ?_ (dedupByText options)).imp of_decide_eq_true
    · intro a b c first second
      exact decide_eq_true (le_trans (of_decide_eq_true first) (of_decide_eq_true second))
    · intro a b
      simp [le_total]
  have apart : (listed options).Pairwise fun a b => a.render ≠ b.render :=
    (dedupByText_pairwise options).perm (List.mergeSort_perm _ _).symm fun differ => differ.symm
  exact sorted.imp₂ (fun _ _ below differ => lt_of_le_of_ne below differ) apart

/-- The options are determined by what is among them. -/
theorem listed_congr (apart : Apart xs)
    (same : ∀ node, node ∈ xs ↔ node ∈ ys) : listed xs = listed ys := by
  have apart' : Apart ys := by
    intro a first b second
    exact apart a ((same a).mpr first) b ((same b).mpr second)
  have : Std.Irrefl fun a b : TypeNode => a.render < b.render := ⟨fun a => lt_irrefl a.render⟩
  have : Std.Antisymm fun a b : TypeNode => a.render < b.render :=
    ⟨fun a b below above => absurd above (lt_asymm below)⟩
  apply (listed_pairwise xs).eq_of_mem_iff (listed_pairwise ys)
  intro node
  rw [mem_listed apart, mem_listed apart', same]

theorem isLeaf_of_mem_collected (canonical : ∀ x ∈ types, Canonical x)
    (member : option ∈ collected types) : option.isLeaf = true := by
  rw [collected, mem_flatMap] at member
  obtain ⟨x, inTypes, inside⟩ := member
  have form := canonical x inTypes
  cases x with
  | unknown => cases inside
  | union options => exact form.2.1 option inside
  | named | «variable» | generic =>
    rw [mem_singleton.mp inside]
    rfl

theorem collected_append (xs ys : List TypeNode) :
    collected (xs ++ ys) = collected xs ++ collected ys :=
  List.flatMap_append

theorem collected_leaves
    (leaves : ∀ option ∈ options, option.isLeaf = true) : collected options = options := by
  induction options with
  | nil => rfl
  | cons option options ih =>
    have rest := ih fun x member => leaves x (mem_cons_of_mem option member)
    have leaf := leaves option mem_cons_self
    rw [← singleton_append, collected_append, rest]
    cases option with
    | unknown | union => cases leaf
    | named | «variable» | generic => rfl

theorem collected_ofOptions (leaves : ∀ option ∈ options, option.isLeaf = true) :
    collected [ofOptions options] = options ∧
      collected (ofOptions options).alternatives = options := by
  match options with
  | [] => exact ⟨rfl, rfl⟩
  | [node] =>
    refine ⟨collected_leaves leaves, ?_⟩
    rw [alternatives_ofOptions (by simp) leaves, collected_leaves leaves]
  | first :: second :: rest => exact ⟨by simp [ofOptions, collected], collected_leaves leaves⟩

theorem collected_unionType (canonical : ∀ x ∈ types, Canonical x) :
    collected [unionType types] = listed (collected types) ∧
      collected (unionType types).alternatives = listed (collected types) := by
  rw [unionType_eq_listed]
  exact collected_ofOptions fun option member =>
    isLeaf_of_mem_collected canonical (mem_of_mem_listed member)

/-- `union_type` makes canonical types of canonical types. -/
theorem canonical_unionType (canonical : ∀ x ∈ types, Canonical x) :
    Canonical (unionType types) := by
  have each : ∀ option ∈ listed (collected types), Canonical option := by
    intro option member
    obtain ⟨x, inTypes, inside⟩ := mem_flatMap.mp (mem_of_mem_listed member)
    have form := canonical x inTypes
    cases x with
    | unknown => cases inside
    | union options => exact (canonicalAll_iff options).mp form.2.2.2 option inside
    | named | «variable» | generic =>
      rw [mem_singleton.mp inside]
      exact form
  have leaves : ∀ option ∈ listed (collected types), option.isLeaf = true :=
    fun option member => isLeaf_of_mem_collected canonical (mem_of_mem_listed member)
  have sorted := listed_pairwise (collected types)
  rw [unionType_eq_listed]
  generalize listed (collected types) = options at each leaves sorted
  match options with
  | [] => trivial
  | [node] => exact each node mem_cons_self
  | first :: second :: rest =>
    exact ⟨by simp, leaves, sorted, (canonicalAll_iff _).mpr each⟩

theorem canonical_unionType_two : Canonical (unionType [.named "B", .named "A"]) :=
  canonical_unionType (by simp [Canonical])

/-! ## The laws of a join -/

/-- `union_type` on a list: no matter the order and the grouping of the types, with duplicates
and unknowns absorbed, and the same again on its own alternatives. -/
structure Joins (types : List TypeNode) : Prop where
  order : ∀ permuted : List TypeNode, permuted.Perm types → unionType permuted = unionType types
  grouping : ∀ before group after : List TypeNode, before ++ group ++ after = types →
    unionType (before ++ unionType group :: after) = unionType types
  duplicates : ∀ node ∈ types, ∀ before after : List TypeNode, before ++ after = types →
    unionType (before ++ node :: after) = unionType types
  unknowns : ∀ before after : List TypeNode, before ++ after = types →
    unionType (before ++ .unknown :: after) = unionType types
  again : unionType (unionType types).alternatives = unionType types

theorem unionType_congr (apart : Apart (collected ys))
    (same : ∀ option, option ∈ collected xs ↔ option ∈ collected ys) :
    unionType xs = unionType ys := by
  rw [unionType_eq_listed, unionType_eq_listed, listed_congr apart fun option => (same option).symm]

theorem joins_of_apart (canonical : ∀ x ∈ types, Canonical x)
    (apart : Apart (collected types)) : Joins types where
  order permuted perm := unionType_congr apart fun _ => (perm.flatMap_right _).mem_iff
  grouping before group after whole := by
    subst whole
    have inner : Apart (collected group) := by
      intro a first b second
      apply apart <;> simp [collected_append, first, second]
    have groupCanonical : ∀ x ∈ group, Canonical x := fun x member =>
      canonical x (by simp [member])
    apply unionType_congr apart
    intro option
    rw [← singleton_append, collected_append, collected_append,
      (collected_unionType groupCanonical).1]
    simp [collected_append, mem_listed inner]
  duplicates node member before after whole := by
    subst whole
    apply unionType_congr apart
    intro option
    have known : option ∈ collected [node] → option ∈ collected (before ++ after) := by
      intro inside
      obtain ⟨x, single, offered⟩ := mem_flatMap.mp inside
      rw [mem_singleton.mp single] at offered
      exact mem_flatMap.mpr ⟨node, member, offered⟩
    rw [← singleton_append, collected_append, collected_append]
    rw [collected_append] at known ⊢
    simp only [mem_append] at known ⊢
    tauto
  unknowns before after whole := by
    subst whole
    apply unionType_congr apart
    simp [collected]
  again := by
    apply unionType_congr apart
    intro option
    rw [(collected_unionType canonical).2, mem_listed apart]

theorem mem_listed_first {rest : List TypeNode} (form : Canonical node)
    (member : option ∈ collected [node]) : option ∈ listed (collected (node :: rest)) := by
  have apart : Apart (collected [node]) := by
    cases node with
    | unknown => intro a first; cases first
    | union options =>
      have sorted := form.2.2.1
      rw [show collected [.union options] = options by simp [collected]]
      exact apart_of_pairwise sorted
    | named | «variable» | generic =>
      intro a first b second _
      rw [mem_singleton.mp first, mem_singleton.mp second]
  have kept : option ∈ dedupByText (collected [node]) :=
    mem_mergeSort.mp ((mem_listed apart).mpr member)
  have grows : ∀ (types start : List TypeNode), option ∈ start →
      option ∈ types.foldl (fun (kept : List TypeNode) node =>
        if kept.any fun other => other.render == node.render then kept else kept ++ [node])
        start := by
    intro types
    induction types with
    | nil => exact fun _ early => early
    | cons x types ih =>
      intro start early
      rw [foldl_cons]
      apply ih
      split
      · exact early
      · exact mem_append_left _ early
  rw [listed, mem_mergeSort, ← singleton_append, collected_append, dedupByText, foldl_append]
  exact grows _ _ kept

/-- `union_type` is a join on a list of canonical types exactly when no two of the options it
collects share a text. -/
theorem joins_iff {types : List TypeNode} (canonical : ∀ x ∈ types, Canonical x) :
    Joins types ↔ Apart (collected types) := by
  refine ⟨fun joins a first b second same => ?_, joins_of_apart canonical⟩
  -- Put first, the type that offers an option keeps that option.
  have kept : ∀ option ∈ collected types, option ∈ collected [unionType types] := by
    intro option member
    obtain ⟨x, inTypes, inside⟩ := mem_flatMap.mp member
    obtain ⟨before, after, rfl⟩ := append_of_mem inTypes
    have permuted : (x :: (before ++ after)).Perm (before ++ x :: after) := List.perm_middle.symm
    rw [← joins.order _ permuted, (collected_unionType fun y inside => canonical y
      (permuted.mem_iff.mp inside)).1]
    exact mem_listed_first (canonical x inTypes) (mem_flatMap.mpr ⟨x, by simp, inside⟩)
  have inBoth := And.intro (kept a first) (kept b second)
  rw [(collected_unionType canonical).1] at inBoth
  exact apart_of_pairwise (listed_pairwise _) a inBoth.1 b inBoth.2 same

theorem joins_apart : (∀ x ∈ [TypeNode.named "Int", .variable "T"], Canonical x) ∧
    (Joins [.named "Int", .variable "T"] ↔ Apart (collected [.named "Int", .variable "T"])) := by
  have canonical : ∀ x ∈ [TypeNode.named "Int", .variable "T"], Canonical x := by
    simp [Canonical]
  exact ⟨canonical, joins_iff canonical⟩

/-- A type variable and a named type of one spelling: the union is the one that comes first. -/
theorem union_depends_on_order : (∀ x ∈ [TypeNode.variable "T", .named "T"], Canonical x) ∧
    unionType [.variable "T", .named "T"] = .variable "T" ∧
    unionType [.named "T", .variable "T"] = .named "T" ∧
    ¬ Joins [.variable "T", .named "T"] := by
  have first : unionType [.variable "T", .named "T"] = .variable "T" := by
    simp [unionType, dedupByText, render]
  have second : unionType [.named "T", .variable "T"] = .named "T" := by
    simp [unionType, dedupByText, render]
  refine ⟨by simp [Canonical], first, second, fun joins => ?_⟩
  have order := joins.order [.named "T", .variable "T"] (List.Perm.swap _ _ _)
  rw [first, second] at order
  cases order

end Koschei.TypeNode
