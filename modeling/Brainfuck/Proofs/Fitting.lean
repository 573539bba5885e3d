import Brainfuck.Proofs.Extent
import Brainfuck.Proofs.Listing
import Brainfuck.Proofs.Reading
import Brainfuck.Proofs.Tracing
import Brainfuck.Proofs.Unpaired

/-! # Numbers that can be written out

The numbers of a diagnostic, a listing or a trace are places and indices of a program, which are
bounded by the length of its source; the data pointer, which moves by one cell with each step at
most; and the values of cells, which are bounded by their width. So they can be written out as long
as the source is not too long and not too many steps are made.

Main definitions: `LinkedProgram.FitsIn`. Main statements: the places of a source
(`Program.fits_of_mem_ofSource`), the program that is linked from it (`Program.fitsIn_of_link`), and
the trace of any number of steps (`Machine.InBounds.showable_follow`). -/

namespace Brainfuck

variable {digits : Nat}

/-- A natural number fits if it is small enough. -/
theorem Numeral.fits_of_lt {value : Nat} (h : value < Nat.pow 10 digits) :
    fits (some digits) value = true :=
  decide_eq_true h

/-! ## Sources -/

theorem lineAt_bounds (source : List UInt8) (offset : Nat) :
    1 ≤ lineAt source offset ∧ lineAt source offset ≤ offset + 1 := by
  have hcount : (source.take offset).count Cursor.newline ≤ (source.take offset).length :=
    List.count_le_length
  rw [List.length_take] at hcount
  rw [lineAt]
  omega

theorem columnAt_bounds (source : List UInt8) (offset : Nat) :
    1 ≤ columnAt source offset ∧ columnAt source offset ≤ offset + 1 := by
  rw [columnAt]
  cases hlast : (lineEndsBefore source offset).getLast? with
  | none =>
    dsimp only
    omega
  | some last =>
    have hmem := List.mem_of_getLast? hlast
    have hbefore : last < offset := List.mem_range.mp (List.mem_filter.mp hmem).1
    dsimp only
    omega

/-- Every instruction of a source stands at some offset of it. -/
theorem Program.exists_offset_of_mem_ofSource {file : String} {source : List UInt8}
    {instruction : Instruction} (h : instruction ∈ (ofSource file source).instructions) :
    ∃ offset < source.length, instructionAtOffset? source offset = some instruction := by
  rw [instructions_ofSource, read_bytes_eq_filterMap, List.mem_filterMap] at h
  obtain ⟨offset, hoffset, hinstruction⟩ := h
  exact ⟨offset, List.mem_range.mp hoffset, hinstruction⟩

/-- The places of a source are no larger than its length. -/
theorem Program.fits_of_mem_ofSource {file : String} {source : List UInt8}
    {instruction : Instruction} (h : instruction ∈ (ofSource file source).instructions)
    (hsource : source.length < Nat.pow 10 digits) : instruction.fits (some digits) = true := by
  obtain ⟨offset, hoffset, hinstruction⟩ := exists_offset_of_mem_ofSource h
  obtain ⟨byte, -, op, -, rfl⟩ : ∃ byte, source[offset]? = some byte ∧
      ∃ op, (Op.all.find? fun op => op.symbol.toNat = byte.toNat) = some op ∧
        (⟨op, lineAt source offset, columnAt source offset⟩ : Instruction) = instruction := by
    simpa [instructionAtOffset?, Option.bind_eq_some_iff] using hinstruction
  have hline := lineAt_bounds source offset
  have hcolumn := columnAt_bounds source offset
  rw [Instruction.fits, Bool.and_eq_true]
  constructor
  · apply decide_eq_true
    dsimp only
    omega
  · apply decide_eq_true
    dsimp only
    omega

/-- There are no more instructions than bytes. -/
theorem Program.length_ofSource_le (file : String) (source : List UInt8) :
    (ofSource file source).instructions.length ≤ source.length := by
  rw [instructions_ofSource, read_bytes_eq_filterMap]
  exact Nat.le_trans (List.length_filterMap_le _ _) (Nat.le_of_eq List.length_range)

/-! ## Linked programs and their diagnostics -/

/-- The size of a program and the numbers of its rows can be written out in so many digits. -/
structure LinkedProgram.FitsIn (digits : Nat) (program : LinkedProgram) : Prop where
  /-- The places and the targets can be written out. -/
  entries : ∀ entry ∈ program.instructions, entry.fits (some digits) = true
  /-- So can the size, and thus any index. -/
  size : program.size < Nat.pow 10 digits

namespace Program

variable {file : String} {source : List UInt8}

/-- A source that is not too long is linked to a program that fits. -/
theorem fitsIn_of_link {linked : LinkedProgram} (hlink : (ofSource file source).link = .ok linked)
    (hsource : source.length < Nat.pow 10 digits) : linked.FitsIn digits := by
  have hpaired := paired_of_link_eq_ok hlink
  have hlength := length_ofSource_le file source
  have hsize : linked.size < Nat.pow 10 digits := by
    rw [hpaired.size]
    omega
  refine ⟨fun entry hentry => ?_, hsize⟩
  have hmem : entry.instruction ∈ (ofSource file source).instructions := by
    rw [← hpaired.instructions]
    exact List.mem_map_of_mem (Array.mem_toList_iff.mpr hentry)
  rw [Linked.fits, Bool.and_eq_true]
  refine ⟨fits_of_mem_ofSource hmem hsource, ?_⟩
  cases htarget : entry.target? with
  | none => rfl
  | some target =>
    obtain ⟨index, hindex⟩ := Array.mem_iff_getElem?.mp hentry
    have hinside := hpaired.jumpsInside index target entry hindex htarget
    exact Numeral.fits_of_lt (Nat.lt_trans hinside hsize)

/-- The bracket that a program is refused for is one of its instructions. -/
theorem bracket_mem_of_link {program : Program} {error : BracketError}
    (hlink : program.link = .error (.bracket error)) : error.bracket ∈ program.instructions := by
  obtain ⟨index, hnames⟩ := link_eq_error_iff.mp hlink
  cases hnames with
  | unopened place excess shortest => exact List.mem_of_getElem? place
  | unclosed place opened start last => exact List.mem_of_getElem? place

end Program

/-- There is a listing of a program that fits. -/
theorem LinkedProgram.FitsIn.exists_listing? {program : LinkedProgram}
    (h : program.FitsIn digits) :
    ∃ listing, program.listing? (some digits) = some listing ∧
      program.listing? none = some listing := by
  refine ⟨_, listing?_eq_some_iff.mpr ⟨h.entries, rfl⟩, ?_⟩
  exact listing?_eq_some_iff.mpr ⟨fun entry _ => entry.fits_none, rfl⟩

/-- A diagnostic can point at an instruction whose place can be written out. -/
theorem Instruction.exists_locator? {instruction : Instruction}
    (h : instruction.fits Numeral.standardLimit = true) (file : String) :
    ∃ text, instruction.locator? file = some text :=
  ⟨_, by rw [locator?, place?_eq_some_iff.mpr ⟨h, rfl⟩, Option.map_some]⟩

theorem BracketError.exists_message? {error : BracketError}
    (h : error.bracket.fits Numeral.standardLimit = true) :
    ∃ message, error.message? = some message := by
  cases error with
  | unopened file closer =>
    obtain ⟨text, htext⟩ : ∃ text, closer.locator? file = some text :=
      Instruction.exists_locator? h file
    exact ⟨_, by rw [message?, htext, Option.map_some]⟩
  | unclosed file opener =>
    obtain ⟨text, htext⟩ : ∃ text, opener.locator? file = some text :=
      Instruction.exists_locator? h file
    exact ⟨_, by rw [message?, htext, Option.map_some]⟩

theorem Fault.exists_message? {fault : Fault}
    (h : fault.instruction.fits Numeral.standardLimit = true) :
    ∃ message, fault.message? = some message := by
  obtain ⟨text, htext⟩ := Instruction.exists_locator? h fault.file
  exact ⟨_, by rw [message?, htext, Option.map_some]⟩

/-! ## Machines -/

/-- The values of cells that are not too wide can be written out. -/
theorem Attainable.fits {kind : CellKind} {value : Int} (h : Attainable [kind] value)
    (hzero : kind.zero = 0) (hwide : kind.modulus ≤ Nat.pow 10 digits) :
    Numeral.fits (some digits) value = true := by
  have hpositive := kind.modulus_pos
  apply decide_eq_true
  rcases h with ⟨hnonneg, hlt⟩ | ⟨other, hother, rfl⟩
  · have hwidest : widest [kind] = kind.bits := Nat.max_zero _
    rw [hwidest] at hlt
    have hmodulus : value < (kind.modulus : Int) := hlt
    omega
  · rw [List.mem_singleton.mp hother, hzero]
    exact Nat.lt_of_lt_of_le hpositive hwide

namespace Machine

variable {ι ο : Type} [InputStream ι] [OutputStream ο] {machine : Machine}
  {console : Console ι ο}

/-- A run is ended by the fault of an instruction of its program. -/
theorem exists_entry_of_run {limit : Nat} {fault : Fault}
    (h : (machine.run limit console).reply = .raised (.fault fault)) :
    ∃ entry ∈ machine.program.instructions, entry.instruction = fault.instruction := by
  induction limit generalizing machine console with
  | zero => cases h
  | succ limit ih =>
    cases hstep : machine.step console with
    | mk reply next later =>
      by_cases hreply : reply = .advanced
      · subst hreply
        have hprogram : next.program = machine.program := by
          rw [← program_step machine console, hstep]
        rw [run_succ_of_advanced hstep] at h
        rw [← hprogram]
        exact ih h
      · rw [run_succ_of_ended (by rw [hstep]; exact hreply)] at h
        obtain ⟨instruction, hnext, hraises⟩ := reply_step_eq_raised_iff.mp h
        refine ⟨_, Array.mem_of_getElem? hnext, ?_⟩
        cases hraises <;> rfl

/-- A trace can be printed exactly if its four numbers can be written out. -/
theorem isSome_traceText?_iff {linked : Linked} :
    (machine.traceText? linked).isSome = true ↔
      linked.fits Numeral.standardLimit = true ∧
        Numeral.fits Numeral.standardLimit machine.pc = true ∧
        Numeral.fits Numeral.standardLimit machine.tape.head = true ∧
        Numeral.fits Numeral.standardLimit machine.tape.current = true := by
  simp only [traceText?, Option.isSome_iff_exists, Option.bind_eq_bind, Option.bind_eq_some_iff,
    Linked.text?_eq_some_iff, Numeral.write?_eq_some_iff]
  constructor
  · rintro ⟨_, _, ⟨hlinked, -⟩, _, ⟨hpc, -⟩, _, ⟨hhead, -⟩, _, ⟨hcell, -⟩, -⟩
    exact ⟨hlinked, hpc, hhead, hcell⟩
  · rintro ⟨hlinked, hpc, hhead, hcell⟩
    exact ⟨_, _, ⟨hlinked, rfl⟩, _, ⟨hpc, rfl⟩, _, ⟨hhead, rfl⟩, _, ⟨hcell, rfl⟩, rfl⟩

namespace InBounds

variable {kinds : List CellKind}

/-- A step can be shown if its program fits, its cells hold no large values, and it leaves the data
pointer at no large index. -/
theorem showable_stepEvent (h : machine.InBounds kinds)
    (hprogram : machine.program.FitsIn Numeral.digitLimit)
    (hvalues : ∀ value, Attainable kinds value →
      Numeral.fits Numeral.standardLimit value = true)
    (hhead : (machine.step console).machine.tape.head < Nat.pow 10 Numeral.digitLimit) :
    (machine.stepEvent console).Showable := by
  intro hexecuted
  have hadvanced := (machine.executed_stepEvent console).mp hexecuted
  obtain ⟨linked, hnext⟩ := exists_next?_of_advanced hadvanced
  have hafter := (h.step console).1
  have hpc := hafter.pc
  rw [program_step] at hpc
  rw [h.shown?_stepEvent, stepText?, hnext, Option.bind_some, isSome_traceText?_iff]
  refine ⟨hprogram.entries linked (Array.mem_of_getElem? hnext), ?_, ?_, ?_⟩
  · exact Numeral.fits_of_lt (Nat.lt_of_le_of_lt hpc hprogram.size)
  · exact Numeral.fits_of_lt hhead
  · exact hvalues _ (hafter.values _ (Array.mem_of_getElem? (Tape.getElem?_head hafter.head)))

/-- So can any number of steps, as long as there are not so many that the data pointer could get to
a large index. -/
theorem showable_follow (h : machine.InBounds kinds)
    (hprogram : machine.program.FitsIn Numeral.digitLimit)
    (hvalues : ∀ value, Attainable kinds value →
      Numeral.fits Numeral.standardLimit value = true)
    {watched : Bool} {limit : Nat}
    (hhead : machine.tape.head + limit < Nat.pow 10 Numeral.digitLimit) {event : StepEvent}
    (hevent : event ∈ (machine.follow watched limit console).1) : event.Showable := by
  induction limit generalizing machine console with
  | zero => cases hevent
  | succ limit ih =>
    have hmoved := ((tapeStep_step h.head console).head h.head).2
    have hafter : (machine.step console).machine.tape.head < Nat.pow 10 Numeral.digitLimit := by
      omega
    have hfirst := h.showable_stepEvent hprogram hvalues hafter
    cases hgoes : (machine.stepTraced console).reply.goesOn watched with
    | true =>
      rw [follow_succ_of_goesOn hgoes, List.mem_cons] at hevent
      rcases hevent with rfl | hevent
      · exact hfirst
      · rw [machine_stepTraced] at hevent
        refine ih (h.step console).1 ?_ ?_ hevent
        · rw [program_step]
          exact hprogram
        · omega
    | false =>
      rw [follow_succ_of_stops hgoes, List.mem_singleton] at hevent
      rw [hevent]
      exact hfirst

/-- On a fixed tape that is not too long, so can any number of steps whatsoever. -/
theorem showable_follow_of_fixed (h : machine.InBounds kinds)
    (hprogram : machine.program.FitsIn Numeral.digitLimit)
    (hvalues : ∀ value, Attainable kinds value →
      Numeral.fits Numeral.standardLimit value = true)
    (hfixed : machine.mayGrow = false) (hsize : machine.tape.size ≤ Nat.pow 10 Numeral.digitLimit)
    {watched : Bool} {limit : Nat} {event : StepEvent}
    (hevent : event ∈ (machine.follow watched limit console).1) : event.Showable := by
  let kept (machine : Machine) : Prop :=
    machine.InBounds kinds ∧ machine.program.FitsIn Numeral.digitLimit ∧
      machine.mayGrow = false ∧ machine.tape.size ≤ Nat.pow 10 Numeral.digitLimit
  have hstep (machine : Machine) (console : Console ι ο) (hkept : kept machine) :
      kept (machine.step console).machine := by
    obtain ⟨hbounds, hprogram, hfixed, hsize⟩ := hkept
    refine ⟨(hbounds.step console).1, ?_, ?_, ?_⟩
    · rwa [program_step]
    · exact (congrArg Rules.mayGrow (rules_step machine console)).trans hfixed
    · rwa [(tapeStep_step hbounds.head console).size_eq_of_fixed hfixed]
  obtain ⟨before, earlier, hkept, -, rfl⟩ :=
    Machine.exists_eq_stepEvent hstep ⟨h, hprogram, hfixed, hsize⟩ hevent
  have hafter := hstep before earlier hkept
  exact hkept.1.showable_stepEvent hkept.2.1 hvalues (Nat.lt_of_lt_of_le hafter.1.head hafter.2.2.2)

end InBounds

end Machine

end Brainfuck
