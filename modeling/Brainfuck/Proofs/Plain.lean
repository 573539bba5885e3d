import Brainfuck.Proofs.Bounds
import Brainfuck.Proofs.Events

/-! # Runs at plain streams

Plain streams are held in memory and never go wrong: the input gives out its bytes one at a time and
then none, and the output stores every byte. An untraced run at plain streams ends with its program
or with an instruction at fault, never otherwise. What it stores are the bytes that it wrote, and
what it consumes are the bytes that it received.

Main definitions: `Console.Plain`, `StepEvent.wrote?`, `StepEvent.received`, `Machine.Served`. Main
statements: what a step and what a run does at plain streams (`Machine.served_step`,
`Machine.served_run`), and how a run ends there (`Machine.reply_run_of_ended`). -/

namespace Brainfuck

/-! ## Plain streams -/

/-- The streams of a console never go wrong, its input gives out one byte at a time, and steps are
not traced. -/
structure Console.Plain (console : Console ScriptedInput ScriptedOutput) : Prop where
  /-- No read fails. -/
  input : console.input.outage = none
  /-- Bytes are given out one at a time. -/
  chunk : console.input.chunk = 1
  /-- No write and no flush fails. -/
  output : console.output.outage = none
  /-- Nothing is traced. -/
  tracing : console.tracing = false

section Reading

variable {input : ScriptedInput}

/-- Reading a byte from a plain input gives the next one. -/
theorem ScriptedInput.readByte_of_cons (houtage : input.outage = none) (hchunk : input.chunk = 1)
    {byte : UInt8} {rest : List UInt8} (hremaining : input.remaining = byte :: rest) :
    InputStream.readByte input =
      (.ok byte, { input with
        remaining := rest
        reads := input.reads + 1
        consumed := input.consumed + 1 }) := by
  have hread : InputStream.read input = input.read := rfl
  unfold InputStream.readByte
  rw [hread]
  simp only [read, nextFailure?, houtage, hchunk, hremaining]
  rfl

/-- Once there is none left, it fails. -/
theorem ScriptedInput.readByte_of_nil (houtage : input.outage = none)
    (hremaining : input.remaining = []) :
    InputStream.readByte input =
      (.error .exhausted, { input with reads := input.reads + 1 }) := by
  have hread : InputStream.read input = input.read := rfl
  obtain ⟨remaining, chunk, outage, reads, consumed⟩ := input
  obtain rfl : remaining = [] := hremaining
  obtain rfl : outage = none := houtage
  unfold InputStream.readByte
  rw [hread]
  simp [read, nextFailure?]

end Reading

/-- What writing a byte to a plain output comes to. -/
theorem ScriptedOutput.writeByte_eq {output : ScriptedOutput} (houtage : output.outage = none)
    {value : Int} (hvalue : 0 ≤ value ∧ value < 256) :
    OutputStream.writeByte value output =
      (.ok (), { output with
        stored := output.stored.push (UInt8.ofNat value.toNat)
        writes := output.writes + 1
        flushes := output.flushes + 1 }) := by
  have hwrite : OutputStream.write (UInt8.ofNat value.toNat) output =
      output.write (UInt8.ofNat value.toNat) := rfl
  have hflush (after : ScriptedOutput) : OutputStream.flush after = after.flush := rfl
  rw [OutputStream.writeByte, if_pos hvalue, hwrite]
  simp only [write, nextFailure?, houtage, hflush, flush]

/-! ## What is written and received -/

namespace StepEvent

/-- The operation that a step finds, unless it is a linked bracket. -/
def op? (event : StepEvent) : Option Op :=
  match event.before.next? with
  | some (.plain instruction) => some instruction.op
  | _ => none

theorem op?_of_plain {event : StepEvent} {instruction : Instruction}
    (h : event.before.next? = some (.plain instruction)) : event.op? = some instruction.op := by
  rw [op?, h]

/-- The byte that a step writes, if it executes an instruction that writes. -/
def wrote? (event : StepEvent) : Option UInt8 :=
  if event.op? = some .output ∧ event.reply = .advanced then some event.before.outputByte else none

/-- Whether a step receives a byte: it executes an instruction that reads. -/
def received (event : StepEvent) : Bool :=
  event.op? = some .input ∧ event.reply = .advanced

end StepEvent

namespace Machine

variable {machine : Machine} {console : Console ScriptedInput ScriptedOutput}

/-- What some steps do at plain streams. -/
structure Served (console : Console ScriptedInput ScriptedOutput) (events : List StepEvent)
    (later : Console ScriptedInput ScriptedOutput) : Prop where
  /-- No error is anything but the fault of an instruction. -/
  blamed : ∀ event ∈ events, ∀ failure, event.reply ≠ .raised (.failure failure)
  /-- The bytes written are stored. -/
  stored : later.output.stored.toList =
    console.output.stored.toList ++ events.filterMap StepEvent.wrote?
  /-- The bytes received are consumed. -/
  consumed : later.input.consumed =
    console.input.consumed + events.countP StepEvent.received
  /-- The streams stay plain. -/
  plain : later.Plain

/-- A step comes to the same whether or not it is observed. -/
theorem reply_stepEvent (h : console.Plain) (machine : Machine) :
    (machine.stepEvent console).reply = (machine.step console).reply := by
  rw [stepEvent, stepTraced_eq h.tracing]

/-- What a step does that is neither a read nor a write. -/
theorem served_of_quiet {event : StepEvent} {later : Console ScriptedInput ScriptedOutput}
    (h : console.Plain) (hreply : ∀ failure, event.reply ≠ .raised (.failure failure))
    (hwrote : event.wrote? = none) (hreceived : event.received = false)
    (hinput : later.input = console.input) (houtput : later.output = console.output)
    (htracing : later.tracing = console.tracing) :
    Served console [event] later where
  blamed := List.forall_mem_singleton.mpr hreply
  stored := by simp [hwrote, houtput]
  consumed := by simp [hreceived, hinput]
  plain := ⟨hinput ▸ h.input, hinput ▸ h.chunk, houtput ▸ h.output, htracing.trans h.tracing⟩

/-- What a step that writes does. -/
theorem served_of_output {instruction : Instruction} (h : console.Plain)
    (hnext : machine.next? = some (.plain instruction)) (hop : instruction.op = .output) :
    Served console [machine.stepEvent console] (machine.step console).console := by
  have hoperation : instruction.op = Primitive.output.op := hop
  have hwrite := ScriptedOutput.writeByte_eq h.output
    (machine.cell.toByte_bounds machine.tape.current)
  have hstep := step_of_effect hnext hoperation (.output hwrite)
  have hreply : (machine.stepEvent console).reply = .advanced := by
    rw [reply_stepEvent h, hstep]
  have hfound : (machine.stepEvent console).op? = some .output := by
    rw [StepEvent.op?_of_plain hnext, hop]
  have hwrote : (machine.stepEvent console).wrote? = some machine.outputByte := by
    simp only [StepEvent.wrote?, hfound, hreply, and_self, if_true]
    rfl
  have hreceived : (machine.stepEvent console).received = false := by
    simp [StepEvent.received, hfound]
  rw [hstep]
  refine ⟨by simp [hreply], ?_, ?_, ?_, ?_, ?_, h.tracing⟩
  · simp only [List.filterMap_cons_some hwrote, Console.output_ofWorld,
      Array.toList_push, List.filterMap_nil]
    rfl
  · simp [hreceived, world]
  · simpa [world] using h.input
  · simpa [world] using h.chunk
  · simpa [world] using h.output

/-- What a step that reads does. -/
theorem served_of_input {instruction : Instruction} (h : console.Plain)
    (hnext : machine.next? = some (.plain instruction)) (hop : instruction.op = .input) :
    Served console [machine.stepEvent console] (machine.step console).console := by
  have hoperation : instruction.op = Primitive.input.op := hop
  have hfound : (machine.stepEvent console).op? = some .input := by
    rw [StepEvent.op?_of_plain hnext, hop]
  have hwrote : (machine.stepEvent console).wrote? = none := by
    simp [StepEvent.wrote?, hfound]
  have hreceived : (machine.stepEvent console).received =
      decide ((machine.stepEvent console).reply = .advanced) := by
    simp [StepEvent.received, hfound]
  cases hremaining : console.input.remaining with
  | cons byte rest =>
    have hread := ScriptedInput.readByte_of_cons h.input h.chunk hremaining
    have hstep := step_of_effect hnext hoperation (.input hread)
    have hreply : (machine.stepEvent console).reply = .advanced := by
      rw [reply_stepEvent h, hstep]
    rw [hstep]
    refine ⟨by simp [hreply], ?_, ?_, ?_, ?_, ?_, h.tracing⟩
    · simp [hwrote, world]
    · simp [hreceived, hreply]
    · simpa using h.input
    · simpa using h.chunk
    · simpa [world] using h.output
  | nil =>
    -- the end of the bytes is the fault of the instruction
    have hread := ScriptedInput.readByte_of_nil h.input hremaining
    have hstep := step_of_effect_raised hnext hoperation (.inputFault hread rfl)
    have hreply : (machine.stepEvent console).reply = .raised
        (.fault ⟨machine.program.file, instruction, .io .exhausted⟩) := by
      rw [reply_stepEvent h, hstep]
      rfl
    rw [hstep]
    refine ⟨by simp [hreply], ?_, ?_, h.input, h.chunk, h.output, h.tracing⟩
    · simp [hwrote, world]
    · simp [hreceived, hreply]

/-- What a step does at plain streams. -/
theorem served_step (h : console.Plain) (machine : Machine) :
    Served console [machine.stepEvent console] (machine.step console).console := by
  by_cases houtput : ∃ instruction, machine.next? = some (.plain instruction) ∧
      instruction.op = .output
  · obtain ⟨instruction, hnext, hop⟩ := houtput
    exact served_of_output h hnext hop
  by_cases hinput : ∃ instruction, machine.next? = some (.plain instruction) ∧
      instruction.op = .input
  · obtain ⟨instruction, hnext, hop⟩ := hinput
    exact served_of_input h hnext hop
  -- no other step touches the streams
  have hop {op : Op} (hother : op = .output ∨ op = .input) :
      (machine.stepEvent console).op? ≠ some op := by
    intro heq
    unfold StepEvent.op? at heq
    split at heq
    next instruction hnext =>
      rw [Option.some.injEq] at heq
      rcases hother with rfl | rfl
      · exact houtput ⟨instruction, hnext, heq⟩
      · exact hinput ⟨instruction, hnext, heq⟩
    next => cases heq
  have hwrote : (machine.stepEvent console).wrote? = none := by
    simp [StepEvent.wrote?, hop (.inl rfl)]
  have hreceived : (machine.stepEvent console).received = false := by
    simp [StepEvent.received, hop (.inr rfl)]
  have hstepped := machine.stepped_step console
  suffices hquiet : (∀ failure, (machine.step console).reply ≠ .raised (.failure failure)) ∧
      (machine.step console).console.input = console.input ∧
      (machine.step console).console.output = console.output from
    served_of_quiet h (reply_stepEvent h machine ▸ hquiet.1) hwrote hreceived hquiet.2.1 hquiet.2.2
      (machine.log_and_tracing_step console).2
  generalize machine.step console = outcome at hstepped
  cases hstepped with
  | finished ended => exact ⟨by simp, rfl, rfl⟩
  | @completed instruction operation after next op effect =>
    cases effect with
    | output => exact absurd ⟨instruction, next, op⟩ houtput
    | input => exact absurd ⟨instruction, next, op⟩ hinput
    | _ => simp [world]
  | @raised instruction operation error after next op effect =>
    cases effect with
    | tooHigh | tooLow => simp [world]
    | outputFault | outputFailure => exact absurd ⟨instruction, next, op⟩ houtput
    | inputFault | inputFailure => exact absurd ⟨instruction, next, op⟩ hinput
  | skipped next zero => simp
  | entered next nonzero => simp
  | returned next => simp
  | passed next bracket => simp

/-! ## Runs -/

/-- Steps at plain streams are followed by more. -/
theorem Served.append {first second : List StepEvent}
    {middle later : Console ScriptedInput ScriptedOutput} (h : Served console first middle)
    (h' : Served middle second later) : Served console (first ++ second) later where
  blamed := List.forall_mem_append.mpr ⟨h.blamed, h'.blamed⟩
  stored := by rw [h'.stored, h.stored, List.filterMap_append, List.append_assoc]
  consumed := by rw [h'.consumed, h.consumed, List.countP_append, Nat.add_assoc]
  plain := h'.plain

/-- What any number of steps do at plain streams. -/
theorem served_follow (h : console.Plain) (watched : Bool) (limit : Nat) (machine : Machine) :
    Served console (machine.follow watched limit console).1
      (machine.follow watched limit console).2 := by
  induction limit generalizing machine console with
  | zero => exact ⟨by simp [follow_zero], by simp [follow_zero], by simp [follow_zero], h⟩
  | succ limit ih =>
    have hstep := served_step h machine
    rw [← stepTraced_eq h.tracing] at hstep
    cases hgoes : (machine.stepTraced console).reply.goesOn watched with
    | true =>
      rw [follow_succ_of_goesOn hgoes]
      exact hstep.append (ih hstep.plain _)
    | false =>
      rw [follow_succ_of_stops hgoes]
      exact hstep

/-- What a run does at plain streams. -/
theorem served_run (h : console.Plain) (limit : Nat) (machine : Machine) :
    Served console (machine.runEvents limit console) (machine.run limit console).console := by
  rw [← runTraced_eq h.tracing, runTraced_eq_follow]
  exact served_follow h false limit machine

/-- A run at plain streams that has ended has come to the end of its program or to a fault. -/
theorem reply_run_of_ended (h : console.Plain) {limit : Nat}
    (hended : (machine.run limit console).reply ≠ .advanced) :
    (machine.run limit console).reply = .finished ∨
      ∃ fault, (machine.run limit console).reply = .raised (.fault fault) := by
  have hblamed := (served_run h limit machine).blamed
  rw [← runTraced_eq h.tracing, runTraced_eq_follow] at hended ⊢
  -- what the run comes to is what its last event came to
  rcases List.eq_nil_or_concat (machine.runEvents limit console) with hnil | ⟨events, last, hlast⟩
  · rw [hnil] at hended
    exact absurd rfl hended
  · have hreply := hblamed last (by rw [hlast]; simp)
    rw [hlast, List.concat_eq_append, StepEvent.lastReply, List.foldl_append] at hended ⊢
    cases hcase : last.reply with
    | advanced => simp [hcase, Reply.reported] at hended
    | finished => simp [hcase, Reply.reported]
    | raised error =>
      cases error with
      | fault fault => simp [hcase, Reply.reported]
      | failure failure => exact absurd hcase (hreply failure)

end Machine

end Brainfuck
