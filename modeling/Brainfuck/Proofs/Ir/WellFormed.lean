import Brainfuck.Ir.Syntax

/-! # Well-formed functions

What an assembler asks of a function: blocks that end where they branch, names that are all
different, branches to blocks that exist, and values that are defined on every way to their uses.

Main definitions: `Supplied`, `Function.Dominates`, `Function.WellFormed`. Main statement:
names that differ are written differently (`Name.text_injective`). -/

namespace Brainfuck.Ir

/-! ## Names and how they are written -/

namespace Stem

/-- All stems. -/
def all : List Stem :=
  [unnamed, entry, pointer, pointerUp, pointerDown, inBounds, elementAddress, element, elementUp,
    elementDown, written, haveInput, inputByte, compareZero, noFault, fault, loopBody, postLoop]

/-- A stem is found by its word. -/
theorem find?_text_all (stem : Stem) : all.find? (·.text == stem.text) = some stem := by
  cases stem <;> rfl

theorem text_injective {stem other : Stem} (h : stem.text = other.text) : stem = other := by
  have hfound := find?_text_all stem
  rw [h, find?_text_all other] at hfound
  exact (Option.some.inj hfound).symm

/-- No word holds a point. -/
theorem point_not_mem_text (stem : Stem) : '.' ∉ stem.text.toList := by
  cases stem <;> decide

end Stem

namespace Name

/-- The word of a name is what is written before the first point. -/
theorem takeWhile_text (name : Name) :
    name.text.toList.takeWhile (· ≠ '.') = name.stem.text.toList := by
  have hword : ∀ letter ∈ name.stem.text.toList, decide (letter ≠ '.') = true := by
    intro letter hletter
    refine decide_eq_true ?_
    rintro rfl
    exact name.stem.point_not_mem_text hletter
  unfold text
  split
  · have hwhole : (name.stem.text.toList ++ []).takeWhile _ = _ :=
      List.takeWhile_append_of_pos hword
    simpa using hwhole
  · rw [String.toList_append, String.toList_append, List.append_assoc,
      List.takeWhile_append_of_pos hword]
    simp

/-- Names that differ are written differently. -/
theorem text_injective {name other : Name} (h : name.text = other.text) : name = other := by
  have hstem : name.stem = other.stem := by
    have hword := name.takeWhile_text
    rw [h, other.takeWhile_text] at hword
    exact Stem.text_injective (String.toList_inj.mp hword.symm)
  obtain ⟨stem, serial⟩ := name
  obtain ⟨_, serial'⟩ := other
  subst hstem
  -- what follows the word tells the serial number, and a number is not empty
  have hnumber (number : Nat) : stem.text ++ "." ++ toString number ≠ stem.text := by
    intro heq
    have hlength := congrArg (fun text : String => text.toList.length) heq
    simp only [String.toList_append, List.length_append] at hlength
    have : ".".toList.length = 1 := rfl
    omega
  simp only [text] at h
  split at h <;> split at h
  · simp_all
  · exact absurd h.symm (hnumber serial')
  · exact absurd h (hnumber serial)
  · have hlist := congrArg String.toList h
    simp only [String.toList_append, List.append_cancel_left_eq] at hlist
    have hserial := congrArg (fun digits => Nat.ofDigitChars 10 digits 0) hlist
    simp only [Nat.toString_eq_ofList_toDigits, String.toList_ofList,
      Nat.ofDigitChars_ten_toDigits] at hserial
    rw [hserial]

end Name

/-! ## Pieces of code -/

/-- The code runs through: no instruction in it ends a block. -/
def Straight (code : List Instr) : Prop := ∀ instr ∈ code, instr.isTerminator = false

/-- The code ends with the only instruction in it that can end a block. -/
def Terminated (code : List Instr) : Prop :=
  ∃ body last, code = body ++ [last] ∧ last.isTerminator = true ∧ Straight body

/-- The names that the instructions define. -/
def results (code : List Instr) : List Name := code.filterMap Instr.result?

/-- Every value that an instruction needs is known before the code begins, or it is defined earlier
in the code. -/
def Supplied (known : Name → Prop) : List Instr → Prop
  | [] => True
  | instr :: rest =>
    (∀ name ∈ instr.uses, known name) ∧
      Supplied (fun name => known name ∨ instr.result? = some name) rest

section Pieces

variable {known known' : Name → Prop} {first second : List Instr} {instr : Instr} {name : Name}

/-- Only what ends a block leads to another one. -/
theorem Instr.targets_of_isTerminator (h : instr.isTerminator = false) : instr.targets = [] := by
  cases instr <;> simp_all [Instr.isTerminator, Instr.targets]

/-- Code that runs through leads nowhere else. -/
theorem Straight.targets (h : Straight first) : first.flatMap Instr.targets = [] :=
  List.flatMap_eq_nil_iff.mpr fun instr hinstr => Instr.targets_of_isTerminator (h instr hinstr)

theorem Straight.append (h : Straight first) (h' : Straight second) : Straight (first ++ second) :=
  List.forall_mem_append.mpr ⟨h, h'⟩

theorem Straight.terminated (h : Straight first) (hlast : instr.isTerminator = true) :
    Terminated (first ++ [instr]) :=
  ⟨first, instr, rfl, hlast, h⟩

theorem mem_results : name ∈ results first ↔ ∃ instr ∈ first, instr.result? = some name :=
  List.mem_filterMap

theorem Supplied.mono (h : Supplied known first) (hknown : ∀ name, known name → known' name) :
    Supplied known' first := by
  induction first generalizing known known' with
  | nil => trivial
  | cons instr rest ih =>
    refine ⟨fun name hname => hknown name (h.1 name hname), ih h.2 ?_⟩
    intro name
    exact Or.imp_left (hknown name)

/-- What the first of two pieces of code defines is known to the second. -/
theorem supplied_append : Supplied known (first ++ second) ↔
    Supplied known first ∧ Supplied (fun name => known name ∨ name ∈ results first) second := by
  induction first generalizing known with
  | nil => simp [Supplied, results]
  | cons instr rest ih =>
    simp only [List.cons_append, Supplied, ih, mem_results, and_assoc, or_assoc, List.mem_cons,
      or_and_right, exists_or, exists_eq_left]

end Pieces

namespace Block

/-- The names that a block gives: its own, and those of the results of its instructions. -/
def names (block : Block) : List Name := block.label :: results block.code

end Block

/-! ## Functions -/

namespace Function

/-- The names that a function gives: that of its parameter, and those of its blocks. -/
def names (function : Function) : List Name :=
  function.parameter :: function.blocks.toList.flatMap Block.names

/-- Control can go from one block to another. -/
def Flows (function : Function) (first second : Nat) : Prop :=
  ∃ block, function.blocks[first]? = some block ∧
    ∃ instr ∈ block.code, second ∈ instr.targets

/-- A way from the first block to another; the blocks on it are listed, the last one first. -/
inductive Path (function : Function) : List Nat → Nat → Prop where
  /-- The way begins at the first block. -/
  | entry : Path function [0] 0
  /-- The way goes on to another block. -/
  | flow {passed : List Nat} {first second : Nat} :
      Path function passed first → function.Flows first second →
        Path function (second :: passed) second

/-- Every way to a block leads through another one. -/
def Dominates (function : Function) (dominator block : Nat) : Prop :=
  ∀ passed, function.Path passed block → dominator ∈ passed

/-- The first block dominates all others. -/
theorem dominates_zero (function : Function) (block : Nat) : function.Dominates 0 block := by
  intro passed hpath
  induction hpath with
  | entry => exact List.mem_singleton_self 0
  | flow _ _ ih => exact List.mem_cons_of_mem _ ih

/-- A way ends at the block listed first. -/
theorem Path.mem {function : Function} {passed : List Nat} {block : Nat}
    (h : function.Path passed block) : block ∈ passed := by
  cases h with
  | entry => exact List.mem_singleton_self 0
  | flow => exact List.mem_cons_self

/-- A block that can be entered from one block only is dominated by it. -/
theorem dominates_of_flows {function : Function} {origin block : Nat} (hblock : block ≠ 0)
    (h : ∀ first, function.Flows first block → first = origin) :
    function.Dominates origin block := by
  intro passed hpath
  cases hpath with
  | entry => exact absurd rfl hblock
  | flow hpath hflows => exact List.mem_cons_of_mem _ (h _ hflows ▸ hpath.mem)

/-- What an assembler asks of a function. -/
structure WellFormed (function : Function) : Prop where
  /-- There is a first block. -/
  entry : 0 < function.blocks.size
  /-- Every block ends with a branch or a return, and holds no other. -/
  terminated : ∀ block ∈ function.blocks, Terminated block.code
  /-- No two of the blocks and values are written alike. -/
  distinct : (function.names.map Name.text).Nodup
  /-- A branch leads to a block that exists and is not the first. -/
  targets : ∀ first second, function.Flows first second →
    0 < second ∧ second < function.blocks.size
  /-- A value that an instruction needs is the parameter, or it is defined earlier in the block, or
  in another block that dominates this one. -/
  defined : ∀ (number : Nat) (block : Block) (before : List Instr) (instr : Instr)
    (after : List Instr), function.blocks[number]? = some block →
    block.code = before ++ instr :: after → ∀ name ∈ instr.uses,
      name = function.parameter ∨ name ∈ results before ∨
        ∃ other definer, other ≠ number ∧ function.blocks[other]? = some definer ∧
          function.Dominates other number ∧ name ∈ results definer.code

end Function

end Brainfuck.Ir
