import Koschei.Lowering.Regular
import Koschei.Lib.Simulation
import Mathlib.Order.Filter.AtTopBot.Basic

/-!
# Running finished blocks at a position of the lowerer

A state of the lowerer stands at a place of the function it is making: after the
instructions its current block has so far. Once the function is finished, the
executor can stand at the same place. `Site.here` is that configuration. An
instruction the lowerer emits there is the next one the executor executes, and a
terminator it sets is the next one the executor follows, because a finished
function embeds every earlier state.

The executor calls functions with a bounded amount of fuel. A step is taken when
it is taken with all large amounts.
-/

namespace Koschei.Lowering

open Lib Ast Mir Filter Relation

variable {σ : Type}

/-- Where finished blocks are run: the machine, the module, what a call does with some
fuel, and the lowerer that has made the blocks. -/
structure Site (σ : Type) where
  machine : Machine σ
  moduleKey : String
  calls : Nat → Caller σ
  final : Lowerer

/-! ## Blocks of a finished function -/

theorem find_range (finished : Lowerer) {count id : Nat} (made : id < count) :
    (((range count).map fun id => freezeBlock id (finished.blocks id)).reverse.find?
      fun block => block.id == (id : Int)) = some (freezeBlock id (finished.blocks id)) := by
  induction count with
  | zero => omega
  | succ count ih =>
    rw [List.range_succ, map_append, reverse_append]
    by_cases last : count = id
    · subst last
      simp [freezeBlock]
    · have earlier : id < count := by omega
      have other : ¬((count : Int) = (id : Int)) := by omega
      rw [List.find?_append, ih earlier]
      simp [freezeBlock, other]

theorem findBlock_freeze {finished : Lowerer} {id : Nat} (made : id < finished.nextBlock) :
    findBlock (freeze finished) id = some (freezeBlock id (finished.blocks id)) :=
  find_range finished made

/-! ## Positions and steps -/

namespace Site

variable (site : Site σ)

/-- One step, taken with all large amounts of fuel. -/
def next (c c' : Config σ) : Prop :=
  ∀ᶠ fuel in atTop, step site.machine (site.calls fuel) site.moduleKey (freeze site.final) c =
    .running c'

/-- The executor where the lowerer stands. -/
def here (L : Lowerer) (frame : Frame) (store : Store σ) : Config σ :=
  ⟨freezeBlock L.current (site.final.blocks L.current),
    (L.blocks L.current).instructions.length, frame, store⟩

def start (block : Nat) (frame : Frame) (store : Store σ) : Config σ :=
  ⟨freezeBlock block (site.final.blocks block), 0, frame, store⟩

/-- Where a return stands, the next step hands out its value. -/
def Returns (value : Value) (store : Store σ) (c : Config σ) : Prop :=
  ∀ fuel, step site.machine (site.calls fuel) site.moduleKey (freeze site.final) c =
    .returned value store

variable {site} {L : Lowerer} {frame frame' : Frame} {store store' : Store σ} {block : Nat}

theorem here_goto (blank : Blank L block) :
    site.here (L.goto block) frame store = site.start block frame store := by
  simp [here, start, blank.empty]

theorem here_reserve (inside : L.current < L.nextBlock) (count : Nat) :
    site.here (L.reserve count) frame store = site.here L frame store := by
  simp only [here, Lowerer.reserve_current, L.reserve_blocks_of_lt inside]

theorem next_push {i : Instruction} (part : Embeds (L.push i) site.final)
    (inside : L.current < L.nextBlock)
    (executes : ∀ᶠ fuel in atTop, executeInstruction site.machine (site.calls fuel)
      site.moduleKey frame i store = .ok frame' store') :
    site.next (site.here L frame store) (site.here (L.push i) frame' store') := by
  have placed : (site.final.blocks L.current).instructions[
      (L.blocks L.current).instructions.length]? = some i := by
    obtain ⟨rest, whole⟩ := part.instructions L.current inside
    rw [← whole, Lowerer.push_blocks_self]
    simp
  filter_upwards [executes] with fuel done
  simp [step, here, freezeBlock, placed, done]

theorem step_close {t : Terminator} (part : Embeds (L.close t) site.final)
    (inside : L.current < L.nextBlock) (fuel : Nat) :
    step site.machine (site.calls fuel) site.moduleKey (freeze site.final)
        (site.here L frame store) =
      followTerminator site.machine (freeze site.final) frame store t := by
  have closed : site.final.blocks L.current = ⟨(L.blocks L.current).instructions, some t⟩ := by
    rw [part.terminated L.current inside (by simp), Lowerer.close_blocks_self]
  simp [step, here, freezeBlock, closed]

theorem next_jump (part : Embeds (L.close (.jump block)) site.final)
    (inside : L.current < L.nextBlock) (made : block < site.final.nextBlock) :
    site.next (site.here L frame store) (site.start block frame store) := by
  refine .of_forall fun fuel => ?_
  rw [step_close part inside]
  simp [followTerminator, enterBlock, findBlock_freeze made, start]

theorem next_branch {condition : ValueId} {thenBlock elseBlock : Nat} {value : Value}
    (part : Embeds (L.close (.branch condition thenBlock elseBlock)) site.final)
    (inside : L.current < L.nextBlock) (thenMade : thenBlock < site.final.nextBlock)
    (elseMade : elseBlock < site.final.nextBlock) (known : frame.values condition = some value)
    (noError : value.isError = false) :
    site.next (site.here L frame store)
      (site.start (if site.machine.runtime.host.truthy value then thenBlock else elseBlock)
        frame store) := by
  refine .of_forall fun fuel => ?_
  rw [step_close part inside]
  have followed (target : Nat) (made : target < site.final.nextBlock) :
      enterBlock (freeze site.final) target frame store =
        .running (site.start target frame store) := by
    simp [enterBlock, findBlock_freeze made, start]
  cases value with
  | error message => cases noError
  | _ =>
    simp only [followTerminator, known]
    split
    · exact followed _ thenMade
    · exact followed _ elseMade

theorem returns_close {id : ValueId} {value : Value}
    (part : Embeds (L.close (.ret (some id))) site.final) (inside : L.current < L.nextBlock)
    (known : frame.values id = some value) :
    site.Returns value store (site.here L frame store) := by
  intro fuel
  rw [step_close part inside]
  simp [followTerminator, known]

theorem returns_unit (part : Embeds (L.close (.ret none)) site.final)
    (inside : L.current < L.nextBlock) : site.Returns .unit store (site.here L frame store) := by
  intro fuel
  rw [step_close part inside]
  rfl

end Site

end Koschei.Lowering
