import Brainfuck.Program

/-! # Linked programs

Linking pairs every loop start with its loop end, so that a jump needs no search. The brackets of a
program are read from left to right with a stack of the loops still open. A loop end without an open
loop is refused where it stands; a loop start that is never closed is refused at the end of the
program, the innermost one being named.

The entry of a loop start is left empty until its loop end has been read; that none is empty in the
end is checked.

Main definitions: `Linked`, `LinkedProgram`, `BracketError`, `LinkError`, `Program.link`. -/

namespace Brainfuck

/-- An instruction of a linked program; a bracket carries the index and the instruction of its
partner. -/
inductive Linked where
  /-- An instruction that is not a bracket. -/
  | plain (instruction : Instruction)
  /-- A loop start and its loop end. -/
  | opener (instruction : Instruction) (closer : Nat) (closerInstruction : Instruction)
  /-- A loop end and its loop start. -/
  | closer (instruction : Instruction) (opener : Nat) (openerInstruction : Instruction)
deriving DecidableEq, Repr

namespace Linked

/-- The instruction without its link. -/
def instruction : Linked → Instruction
  | plain instruction => instruction
  | opener instruction _ _ => instruction
  | closer instruction _ _ => instruction

/-- The operation of a linked instruction. -/
def op (linked : Linked) : Op := linked.instruction.op

/-- The index of the partner of a bracket. -/
def target? : Linked → Option Nat
  | plain _ => none
  | opener _ partner _ => some partner
  | closer _ partner _ => some partner

/-- The row text of a linked instruction; brackets also name the index of their partner. -/
def text? (limit : Option Nat) (linked : Linked) : Option String := do
  let text ← linked.instruction.text? limit
  match linked.target? with
  | none => return text
  | some target => return text ++ " (target: " ++ (← Numeral.write? limit target) ++ ")"

end Linked

/-- A program whose brackets match and know their partners. -/
structure LinkedProgram where
  /-- The name of the file, for diagnostics. -/
  file : String
  /-- The linked instructions, at the indices of the instructions they were made from. -/
  instructions : Array Linked
deriving DecidableEq, Repr

namespace LinkedProgram

/-- The number of instructions. -/
def size (program : LinkedProgram) : Nat := program.instructions.size

/-- One row for each linked instruction, if all their places and targets can be written out. -/
def listing? (limit : Option Nat) (program : LinkedProgram) : Option String :=
  listingOf? program.file (program.instructions.toList.map (·.text? limit))

end LinkedProgram

/-- Why the brackets of a program do not match. -/
inductive BracketError where
  /-- A loop end that no open loop precedes. -/
  | unopened (file : String) (closer : Instruction)
  /-- A loop start that is still open at the end of the program. -/
  | unclosed (file : String) (opener : Instruction)
deriving DecidableEq, Repr

namespace BracketError

/-- The file whose brackets do not match. -/
def file : BracketError → String
  | unopened file _ => file
  | unclosed file _ => file

/-- The bracket that has no partner. -/
def bracket : BracketError → Instruction
  | unopened _ closer => closer
  | unclosed _ opener => opener

/-- The diagnostic for a bracket without a partner, if its place can be written out. -/
def message? : BracketError → Option String
  | unopened file closer => (closer.locator? file).map (· ++ "']' has no matching '['")
  | unclosed file opener => (opener.locator? file).map (· ++ "'[' is never closed")

end BracketError

/-- Why a program cannot be linked. -/
inductive LinkError where
  /-- A bracket has no partner. -/
  | bracket (error : BracketError)
  /-- The entry of a loop start is still empty in the end. -/
  | unpatched
deriving DecidableEq, Repr

/-- The text that goes with an empty entry. -/
def LinkError.unpatchedMessage : String := "unpatched loop start"

/-- A loop whose end has not been read: the index and the instruction of its start. -/
structure OpenLoop where
  /-- The index of the loop start. -/
  index : Nat
  /-- The loop start. -/
  start : Instruction
deriving DecidableEq, Repr

namespace Program

/-- The entries that follow those found, if none of them is empty. -/
def patchedFrom? (found : Array Linked) : List (Option Linked) → Option (Array Linked)
  | [] => some found
  | none :: _ => none
  | some entry :: rest => patchedFrom? (found.push entry) rest

/-- The entries, if none of them is empty. -/
def patched? (entries : Array (Option Linked)) : Option (Array Linked) :=
  patchedFrom? #[] entries.toList

/-- The linked program with the given entries, none of which may be empty. -/
def finish (file : String) (entries : Array (Option Linked)) : Except LinkError LinkedProgram :=
  match patched? entries with
  | some instructions => .ok ⟨file, instructions⟩
  | none => .error .unpatched

/-- Links the instructions that follow those of `linked`, with the given loops open, innermost
first. The entry of an open loop start is empty until its end is read. -/
def linkFrom (file : String) (loops : List OpenLoop) (linked : Array (Option Linked)) :
    List Instruction → Except LinkError LinkedProgram
  | [] =>
    match loops with
    | [] => finish file linked
    | innermost :: _ => .error (.bracket (.unclosed file innermost.start))
  | instruction :: rest =>
    match instruction.op with
    | .loopStart =>
      linkFrom file (⟨linked.size, instruction⟩ :: loops) (linked.push none) rest
    | .loopEnd =>
      match loops with
      | [] => .error (.bracket (.unopened file instruction))
      | innermost :: outer =>
        let opener := Linked.opener innermost.start linked.size instruction
        let closer := Linked.closer instruction innermost.index innermost.start
        linkFrom file outer
          ((linked.setIfInBounds innermost.index (some opener)).push (some closer)) rest
    | _ => linkFrom file loops (linked.push (some (.plain instruction))) rest

/-- Pairs the brackets of a program, or names the bracket that has no partner. -/
def link (program : Program) : Except LinkError LinkedProgram :=
  linkFrom program.file [] #[] program.instructions

/-! ## Reading the definitions -/

theorem patchedFrom?_eq_some_iff {found instructions : Array Linked}
    {entries : List (Option Linked)} :
    patchedFrom? found entries = some instructions ↔
      ∃ more : List Linked, entries = more.map some ∧ instructions = found ++ more.toArray := by
  induction entries generalizing found with
  | nil =>
    constructor
    · intro h
      exact ⟨[], rfl, by simpa using (Option.some.inj h).symm⟩
    · rintro ⟨_ | ⟨entry, more⟩, hentries, rfl⟩
      · simp [patchedFrom?]
      · cases hentries
  | cons entry rest ih =>
    cases entry with
    | none =>
      refine ⟨fun h => (by cases h), ?_⟩
      rintro ⟨_ | ⟨entry, more⟩, hentries, -⟩ <;> cases hentries
    | some entry =>
      rw [patchedFrom?, ih]
      constructor
      · rintro ⟨more, rfl, rfl⟩
        exact ⟨entry :: more, by simp, by simp⟩
      · rintro ⟨_ | ⟨first, more⟩, hentries, rfl⟩
        · cases hentries
        · rw [List.map_cons, List.cons.injEq, Option.some.injEq] at hentries
          obtain ⟨rfl, rfl⟩ := hentries
          exact ⟨more, rfl, by simp⟩

theorem patchedFrom?_eq_none_iff {found : Array Linked} {entries : List (Option Linked)} :
    patchedFrom? found entries = none ↔ none ∈ entries := by
  induction entries generalizing found with
  | nil => simp [patchedFrom?]
  | cons entry rest ih => cases entry <;> simp [patchedFrom?, ih]

/-- Entries are refused exactly if one of them is empty. -/
theorem patched?_eq_none_iff {entries : Array (Option Linked)} :
    patched? entries = none ↔ none ∈ entries := by
  rw [patched?, patchedFrom?_eq_none_iff, Array.mem_toList_iff]

/-- The entries are those found exactly if all of them are there. -/
theorem patched?_eq_some_iff {entries : Array (Option Linked)} {instructions : Array Linked} :
    patched? entries = some instructions ↔ entries = instructions.map some := by
  rw [patched?, patchedFrom?_eq_some_iff]
  constructor
  · rintro ⟨more, hentries, rfl⟩
    apply Array.toList_inj.mp
    simp [hentries]
  · rintro rfl
    exact ⟨instructions.toList, by simp, by simp⟩

section Reading

variable {instruction : Instruction} (file : String) (loops : List OpenLoop)
  (linked : Array (Option Linked)) (rest : List Instruction)

@[simp] theorem finish_map_some (instructions : Array Linked) :
    finish file (instructions.map some) = .ok ⟨file, instructions⟩ := by
  rw [finish, patched?_eq_some_iff.mpr rfl]

/-- No bracket is blamed for an empty entry. -/
@[simp] theorem finish_ne_bracket (error : BracketError) :
    finish file linked ≠ .error (.bracket error) := by
  unfold finish
  split <;> simp

@[simp] theorem linkFrom_nil_nil : linkFrom file [] linked [] = finish file linked := rfl

@[simp] theorem linkFrom_cons_nil (innermost : OpenLoop) :
    linkFrom file (innermost :: loops) linked [] =
      .error (.bracket (.unclosed file innermost.start)) := rfl

/-- A loop start is opened, and its entry is empty until its end is read. -/
theorem linkFrom_start (h : instruction.op = .loopStart) :
    linkFrom file loops linked (instruction :: rest) =
      linkFrom file (⟨linked.size, instruction⟩ :: loops) (linked.push none) rest := by
  simp only [linkFrom, h]

/-- A loop end without an open loop is refused. -/
theorem linkFrom_end_nil (h : instruction.op = .loopEnd) :
    linkFrom file [] linked (instruction :: rest) =
      .error (.bracket (.unopened file instruction)) := by
  rw [linkFrom, h]

/-- A loop end is paired with the innermost open loop. -/
theorem linkFrom_end_cons (h : instruction.op = .loopEnd) (innermost : OpenLoop) :
    linkFrom file (innermost :: loops) linked (instruction :: rest) =
      linkFrom file loops
        ((linked.setIfInBounds innermost.index
          (some (.opener innermost.start linked.size instruction))).push
          (some (.closer instruction innermost.index innermost.start))) rest := by
  rw [linkFrom, h]

/-- Any other instruction is passed through. -/
theorem linkFrom_plain (hs : instruction.op ≠ .loopStart) (he : instruction.op ≠ .loopEnd) :
    linkFrom file loops linked (instruction :: rest) =
      linkFrom file loops (linked.push (some (.plain instruction))) rest := by
  rw [linkFrom.eq_def]
  cases h : instruction.op <;> simp_all

end Reading

end Program

end Brainfuck
