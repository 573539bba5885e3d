import Brainfuck.Machine.Settings
import Brainfuck.Proofs.Lockstep
import Brainfuck.Proofs.Pairing

/-! # Where instructions stand

Files, lines and columns are for diagnostics only. Two programs with the same operations are linked
in the same way, and machines that run them do the same; errors name the instructions at the same
index, each by its own place.

Main definitions: `Program.SameOps`, `BracketError.AlikeIn`, `RunError.AlikeAt`,
`Machine.StepsAlike`. Main statements: `Program.SameOps.link` and `MachineSettings.build_alike`. -/

namespace Brainfuck

variable {ι ο : Type}

/-- Two results are both errors or both values, and a relation holds of them. -/
inductive ResultsAlike {ε α : Type} (errors : ε → ε → Prop) (values : α → α → Prop) :
    Except ε α → Except ε α → Prop where
  /-- Both are errors. -/
  | error {first second : ε} (alike : errors first second) :
      ResultsAlike errors values (.error first) (.error second)
  /-- Both are values. -/
  | ok {first second : α} (alike : values first second) :
      ResultsAlike errors values (.ok first) (.ok second)

theorem ResultsAlike.mono {ε α : Type} {errors : ε → ε → Prop} {values values' : α → α → Prop}
    {first second : Except ε α} (h : ResultsAlike errors values first second)
    (hvalues : ∀ value value', first = .ok value → second = .ok value' → values value value' →
      values' value value') :
    ResultsAlike errors values' first second := by
  cases h with
  | error alike => exact .error alike
  | ok alike => exact .ok (hvalues _ _ rfl rfl alike)

/-! ## Linking -/

/-- Two programs have the same operations in the same order. -/
def Program.SameOps (source source' : Program) : Prop :=
  source.instructions.map Instruction.op = source'.instructions.map Instruction.op

/-- The same is wrong with the brackets of two programs, at the same index. -/
inductive BracketError.AlikeIn (source source' : Program) :
    BracketError → BracketError → Prop where
  /-- The loop ends at an index have no loop starts. -/
  | unopened {index : Nat} {closer closer' : Instruction}
      (place : source.instructions[index]? = some closer)
      (place' : source'.instructions[index]? = some closer') :
      AlikeIn source source' (.unopened source.file closer) (.unopened source'.file closer')
  /-- The loop starts at an index are not closed. -/
  | unclosed {index : Nat} {opener opener' : Instruction}
      (place : source.instructions[index]? = some opener)
      (place' : source'.instructions[index]? = some opener') :
      AlikeIn source source' (.unclosed source.file opener) (.unclosed source'.file opener')

/-- Two programs cannot be linked because the same is wrong with their brackets. -/
inductive LinkError.AlikeIn (source source' : Program) : LinkError → LinkError → Prop where
  /-- The same is wrong with the brackets. -/
  | bracket {error error' : BracketError} (alike : error.AlikeIn source source' error') :
      AlikeIn source source' (.bracket error) (.bracket error')

/-- The same is wrong with the brackets of two programs, or both are left with an empty entry, which
is yet to be excluded. -/
def LinkError.AlikeOrUnpatched (source source' : Program) (error error' : LinkError) : Prop :=
  error.AlikeIn source source' error' ∨ error = .unpatched ∧ error' = .unpatched

/-- The open loops of two programs start at the same indices. -/
inductive LoopsAlike (source source' : Program) : List OpenLoop → List OpenLoop → Prop where
  /-- No loops are open. -/
  | nil : LoopsAlike source source' [] []
  /-- The innermost loops start at the same index. -/
  | cons {index : Nat} {start start' : Instruction} {loops loops' : List OpenLoop}
      (op : start.op = start'.op) (place : source.instructions[index]? = some start)
      (place' : source'.instructions[index]? = some start')
      (outer : LoopsAlike source source' loops loops') :
      LoopsAlike source source' (⟨index, start⟩ :: loops) (⟨index, start'⟩ :: loops')

/-- Entries are alike at every index, or empty at the same one. -/
def EntriesAlike (entries entries' : Array (Option Linked)) : Prop :=
  ∀ index : Nat, Option.Rel (Option.Rel Linked.Alike) entries[index]? entries'[index]?

namespace EntriesAlike

variable {entries entries' : Array (Option Linked)} {entry entry' : Option Linked}

theorem size_eq (h : EntriesAlike entries entries') : entries.size = entries'.size := by
  -- at either size both have no entry
  have hfirst := h entries.size
  have hsecond := h entries'.size
  rw [Array.getElem?_eq_none (Nat.le_refl _)] at hfirst hsecond
  cases hnone : entries'[entries.size]? with
  | some entry =>
    rw [hnone] at hfirst
    cases hfirst
  | none =>
    cases hnone' : entries[entries'.size]? with
    | some entry =>
      rw [hnone'] at hsecond
      cases hsecond
    | none => exact Nat.le_antisymm (by simpa using hnone') (by simpa using hnone)

theorem push (h : EntriesAlike entries entries') (halike : Option.Rel Linked.Alike entry entry') :
    EntriesAlike (entries.push entry) (entries'.push entry') := by
  intro index
  rw [Array.getElem?_push, Array.getElem?_push, h.size_eq]
  by_cases hindex : index = entries'.size
  · rw [if_pos hindex, if_pos hindex]
    exact .some halike
  · rw [if_neg hindex, if_neg hindex]
    exact h index

theorem setIfInBounds (h : EntriesAlike entries entries')
    (halike : Option.Rel Linked.Alike entry entry') (place : Nat) :
    EntriesAlike (entries.setIfInBounds place entry) (entries'.setIfInBounds place entry') := by
  intro index
  rw [Array.getElem?_setIfInBounds, Array.getElem?_setIfInBounds, h.size_eq]
  by_cases hindex : place = index
  · rw [if_pos hindex, if_pos hindex]
    by_cases hbound : place < entries'.size
    · rw [if_pos hbound, if_pos hbound]
      exact .some halike
    · rw [if_neg hbound, if_neg hbound]
      exact .none
  · rw [if_neg hindex, if_neg hindex]
    exact h index

/-- The same entries are empty. -/
theorem mem_none_iff (h : EntriesAlike entries entries') : none ∈ entries ↔ none ∈ entries' := by
  have hindex (index : Nat) : entries[index]? = some none ↔ entries'[index]? = some none := by
    have hentry := h index
    generalize entries[index]? = first at hentry ⊢
    generalize entries'[index]? = second at hentry ⊢
    cases hentry with
    | none => simp
    | some alike => cases alike <;> simp
  rw [Array.mem_iff_getElem?, Array.mem_iff_getElem?]
  exact exists_congr hindex

/-- Alike entries make alike programs, unless one of them is empty on both sides. -/
theorem finish {source source' : Program} (h : EntriesAlike entries entries') :
    ResultsAlike (LinkError.AlikeOrUnpatched source source') LinkedProgram.Alike
      (Program.finish source.file entries) (Program.finish source'.file entries') := by
  have hnone : Program.patched? entries = none ↔ Program.patched? entries' = none := by
    rw [Program.patched?_eq_none_iff, h.mem_none_iff, Program.patched?_eq_none_iff]
  unfold Program.finish
  cases hfirst : Program.patched? entries with
  | none =>
    rw [hnone.mp hfirst]
    exact .error (.inr ⟨rfl, rfl⟩)
  | some instructions =>
    cases hsecond : Program.patched? entries' with
    | none => cases hfirst.symm.trans (hnone.mpr hsecond)
    | some instructions' =>
      refine .ok fun index => ?_
      have hentry := h index
      rw [Program.patched?_eq_some_iff.mp hfirst, Program.patched?_eq_some_iff.mp hsecond,
        Array.getElem?_map, Array.getElem?_map] at hentry
      show Option.Rel Linked.Alike instructions[index]? instructions'[index]?
      cases hentry' : instructions[index]? <;> cases hother : instructions'[index]? <;>
        rw [hentry', hother] at hentry <;> cases hentry
      · exact .none
      · rename_i alike
        cases alike with
        | some alike => exact .some alike

end EntriesAlike

/-- What is left of a list after some elements begins with the element at their number. -/
theorem getElem?_of_drop_eq_cons {α : Type} {list rest : List α} {count : Nat} {first : α}
    (h : list.drop count = first :: rest) :
    list[count]? = some first ∧ list.drop (count + 1) = rest := by
  constructor
  · have hfirst := congrArg (·[0]?) h
    simpa using hfirst
  · have hrest := congrArg (List.drop 1) h
    simpa [List.drop_drop] using hrest

namespace Program

variable {source source' : Program}

/-- Linking goes on in the same way from alike entries with alike open loops. -/
theorem linkFrom_alike {rest rest' : List Instruction} {loops loops' : List OpenLoop}
    {linked linked' : Array (Option Linked)}
    (hops : rest.map Instruction.op = rest'.map Instruction.op)
    (hrest : source.instructions.drop linked.size = rest)
    (hrest' : source'.instructions.drop linked'.size = rest')
    (hloops : LoopsAlike source source' loops loops') (hlinked : EntriesAlike linked linked') :
    ResultsAlike (LinkError.AlikeOrUnpatched source source') LinkedProgram.Alike
      (linkFrom source.file loops linked rest) (linkFrom source'.file loops' linked' rest') := by
  induction rest generalizing rest' loops loops' linked linked' with
  | nil =>
    obtain rfl : rest' = [] := by simpa using hops.symm
    cases hloops with
    | nil => exact hlinked.finish
    | cons op place place' outer => exact .error (.inl (.bracket (.unclosed place place')))
  | cons instruction rest ih =>
    cases rest' with
    | nil => cases hops
    | cons instruction' rest' =>
      simp only [List.map_cons, List.cons.injEq] at hops
      obtain ⟨hop, hops⟩ := hops
      obtain ⟨hplace, hrest⟩ := getElem?_of_drop_eq_cons hrest
      obtain ⟨hplace', hrest'⟩ := getElem?_of_drop_eq_cons hrest'
      rw [← hlinked.size_eq] at hplace'
      -- a loop start, a loop end, or any other operation, on both sides
      by_cases hstart : instruction.op = .loopStart
      · rw [linkFrom_start _ _ _ _ hstart, linkFrom_start _ _ _ _ (hop ▸ hstart),
          ← hlinked.size_eq]
        exact ih hops (by simpa using hrest) (by simpa using hrest')
          (.cons hop hplace hplace' hloops) (hlinked.push .none)
      · by_cases hend : instruction.op = .loopEnd
        · cases hloops with
          | nil =>
            rw [linkFrom_end_nil _ _ _ hend, linkFrom_end_nil _ _ _ (hop ▸ hend)]
            exact .error (.inl (.bracket (.unopened hplace hplace')))
          | @cons index start start' loops loops' op place place' outer =>
            rw [linkFrom_end_cons _ _ _ _ hend, linkFrom_end_cons _ _ _ _ (hop ▸ hend),
              ← hlinked.size_eq]
            exact ih hops (by simpa using hrest) (by simpa using hrest') outer
              ((hlinked.setIfInBounds (.some (.opener op)) index).push (.some (.closer hop)))
        · rw [linkFrom_plain _ _ _ _ hstart hend,
            linkFrom_plain _ _ _ _ (hop ▸ hstart) (hop ▸ hend)]
          exact ih hops (by simpa using hrest) (by simpa using hrest') hloops
            (hlinked.push (.some (.plain hop)))

/-- Programs with the same operations are linked alike, or the same is wrong with both. -/
theorem SameOps.link (h : source.SameOps source') :
    ResultsAlike (LinkError.AlikeIn source source') LinkedProgram.Alike source.link
      source'.link := by
  have hentries : EntriesAlike #[] #[] := fun index => by simp
  have halike : ResultsAlike (LinkError.AlikeOrUnpatched source source') LinkedProgram.Alike
      source.link source'.link := linkFrom_alike h rfl rfl .nil hentries
  have hpatched := source.link_ne_unpatched
  generalize source.link = result at halike hpatched ⊢
  generalize source'.link = result' at halike ⊢
  cases halike with
  | ok alike => exact .ok alike
  | error alike =>
    rcases alike with halike | ⟨rfl, -⟩
    · exact .error halike
    · exact absurd rfl hpatched

end Program

/-! ## Machines -/

/-- Errors of two programs are the same; faults are those of the instructions at an index. -/
inductive RunError.AlikeAt (source source' : Program) (index : Nat) :
    RunError → RunError → Prop where
  /-- The instructions are at fault for the same cause. -/
  | fault {instruction instruction' : Instruction} (cause : FaultCause)
      (place : source.instructions[index]? = some instruction)
      (place' : source'.instructions[index]? = some instruction') :
      AlikeAt source source' index (.fault ⟨source.file, instruction, cause⟩)
        (.fault ⟨source'.file, instruction', cause⟩)
  /-- The same failure is passed on. -/
  | failure (failure : Failure) : AlikeAt source source' index (.failure failure) (.failure failure)

/-- Replies of machines at the instructions at an index are the same; errors are alike. -/
inductive Reply.AlikeAt (source source' : Program) (index : Nat) : Reply → Reply → Prop where
  /-- Both executed an instruction. -/
  | advanced : AlikeAt source source' index .advanced .advanced
  /-- Both programs had ended. -/
  | finished : AlikeAt source source' index .finished .finished
  /-- Both instructions raised an error. -/
  | raised {error error' : RunError} (alike : error.AlikeAt source source' index error') :
      AlikeAt source source' index (.raised error) (.raised error')

section Sources

variable {source source' : Program} {program program' : LinkedProgram}

/-- Without its link, an entry of a linked program is the instruction of the source. -/
theorem Paired.getElem?_instruction (h : Paired source program) {index : Nat} {entry : Linked}
    (hentry : program.instructions[index]? = some entry) :
    source.instructions[index]? = some entry.instruction := by
  rw [← h.instructions, List.getElem?_map, Array.getElem?_toList, hentry]
  rfl

/-- Errors of entries at an index are errors of the instructions there. -/
theorem RunError.Alike.at {index : Nat} {entry entry' : Linked} {error error' : RunError}
    (h : error.Alike program.file program'.file entry.instruction entry'.instruction error')
    (hpaired : Paired source program) (hpaired' : Paired source' program')
    (hentry : program.instructions[index]? = some entry)
    (hentry' : program'.instructions[index]? = some entry') :
    error.AlikeAt source source' index error' := by
  cases h with
  | fault cause =>
    rw [hpaired.file, hpaired'.file]
    exact .fault cause (hpaired.getElem?_instruction hentry) (hpaired'.getElem?_instruction hentry')
  | failure failure => exact .failure failure

theorem Reply.Alike.at {first second : Machine} {reply reply' : Reply}
    (h : reply.Alike first second reply') (hpaired : Paired source first.program)
    (hpaired' : Paired source' second.program) (hpc : first.pc = second.pc) :
    reply.AlikeAt source source' first.pc reply' := by
  cases h with
  | advanced => exact .advanced
  | finished => exact .finished
  | raised next next' alike => exact .raised (alike.at hpaired hpaired' next (hpc ▸ next'))

end Sources

/-- Equal tapes stay equal under the same operations. -/
theorem Tape.kept_eq {rules rules' : Rules} (hcell : rules.cell = rules'.cell) :
    Kept Eq rules rules' where
  head h := h ▸ rfl
  byte h := by rw [h, hcell]
  left h _ := by rw [h]
  increment h := by rw [h, hcell]
  decrement h := by rw [h, hcell]
  store byte h := by rw [h, hcell]

namespace Machine

variable [InputStream ι] [OutputStream ο]

/-- After a number of steps of machines for two programs all is the same: program counters,
statuses, tapes and streams, what every step came to, and the calls. -/
structure StepsAlike (source source' : Program) (first second : Machine)
    (console console' : Console ι ο) (count : Nat) : Prop where
  /-- Program counters, statuses, tapes and streams are the same. -/
  abreast : Abreast Eq (first.steps count console).machine (second.steps count console').machine
    (first.steps count console).console (second.steps count console').console
  /-- Every step came to the same, errors being those of the instruction it was made at. -/
  replies : ∀ step < count, (first.steps (step + 1) console).reply.AlikeAt source source'
    (first.steps step console).machine.pc (second.steps (step + 1) console').reply
  /-- The calls are the same. -/
  calls : first.stepsCalls count console = second.stepsCalls count console'

/-- Two machines run alike programs from the same state. -/
structure Twins (first second : Machine) : Prop where
  /-- The programs are alike. -/
  program : first.program.Alike second.program
  /-- The cells are of the same kind. -/
  cell : first.cell = second.cell
  /-- Both tapes may grow, or none. -/
  mayGrow : first.mayGrow = second.mayGrow
  /-- The tapes are the same. -/
  tape : first.tape = second.tape
  /-- The program counters are the same. -/
  pc : first.pc = second.pc
  /-- The statuses are the same. -/
  status : first.status = second.status

variable {source source' : Program} {first second : Machine} {console console' : Console ι ο}

theorem Twins.lockstep (h : Twins first second) (hstreams : console.streams = console'.streams)
    (count : Nat) : Lockstep Eq first second console console' count := by
  refine Abreast.lockstep ⟨h.pc, h.status, h.tape, hstreams⟩ (Tape.kept_eq h.cell) h.program ?_
  intro step _ hsofar
  have htape := hsofar.abreast.tape
  constructor
  · intro instruction partner target _
    rw [htape]
  · intro instruction _ _
    have hcell : first.rules.cell = second.rules.cell := h.cell
    have hgrow : first.rules.mayGrow = second.rules.mayGrow := h.mayGrow
    have hright : Tape.right? first.rules = Tape.right? second.rules := by
      funext tape
      rw [Tape.right?, Tape.right?, hcell, hgrow]
    rw [rules_steps, rules_steps, htape, hright]
    cases Tape.right? second.rules (second.steps step console').machine.tape with
    | none => exact .none
    | some tape => exact .some rfl

/-- Steps of machines that run alike programs are alike. -/
theorem Twins.stepsAlike (h : Twins first second) (hpaired : Paired source first.program)
    (hpaired' : Paired source' second.program) (hstreams : console.streams = console'.streams)
    (count : Nat) : StepsAlike source source' first second console console' count := by
  have hlockstep := h.lockstep hstreams count
  refine ⟨hlockstep.abreast, ?_, hlockstep.calls⟩
  intro step hstep
  exact (hlockstep.replies step hstep).at (by simpa using hpaired) (by simpa using hpaired')
    (h.lockstep hstreams step).abreast.pc

end Machine

/-- The same settings make the same machine for alike programs, or are refused for the same reason.
-/
theorem MachineSettings.build_alike {program program' : LinkedProgram}
    (h : program.Alike program') (settings : MachineSettings) :
    ResultsAlike Eq (fun first second => first.Twins second ∧ first.program = program ∧
      second.program = program') (settings.build program) (settings.build program') := by
  simp only [build, Machine.create]
  cases settings.cell.kind with
  | error error => exact .error rfl
  | ok kind =>
    cases tapeSize settings.size with
    | error error => exact .error rfl
    | ok count => exact .ok ⟨⟨h, rfl, rfl, rfl, rfl, rfl⟩, rfl, rfl⟩

end Brainfuck
