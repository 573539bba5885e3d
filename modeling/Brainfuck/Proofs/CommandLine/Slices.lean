import Brainfuck.CommandLine.Slices
import Brainfuck.Proofs.Interleaving
import Brainfuck.Proofs.Plain

/-! # Runs in slices

A machine that is run slice by slice, with input that comes in pieces, comes to what it comes to in
one go with all of the input. What was put out on the way and the last report make up the report of
that run.

Main definitions: `Feed`, `Feed.Completes`, `Feed.Ends`. Main statements: a step and a slice go as
they go on all of the input, unless more of it is to be fetched (`Feed.Completes.stepTraced`,
`Feed.Completes.slice`, `Feed.Completes.slice_of_starved`), and so does the whole run
(`exists_run_runSlices_eq_perform`). -/

namespace Brainfuck.CommandLine

/-- A slice finds no input where an instruction is at fault for that. -/
theorem pauseOf_eq_starved_iff {reply : Reply} :
    pauseOf reply = .starved ↔
      ∃ fault, reply = .raised (.fault fault) ∧ fault.cause = .io .exhausted := by
  cases reply with
  | advanced => simp [pauseOf]
  | finished => simp [pauseOf]
  | raised error => cases error <;> simp [pauseOf, isStarvation]

/-- A slice whose steps were all made can go on. -/
theorem pauseOf_eq_limit_iff {reply : Reply} : pauseOf reply = .limit ↔ reply = .advanced := by
  cases reply with
  | advanced => simp [pauseOf]
  | finished => simp [pauseOf]
  | raised error =>
    simp only [pauseOf, reduceCtorEq, iff_false]
    split <;> simp

/-! ## Input in pieces -/

/-- What a run in slices meets with: the pieces of input that are still to be fetched, and what has
been put out. -/
structure Feed where
  /-- The pieces of input. -/
  pieces : List (List UInt8)
  /-- What has been put out. -/
  output : Array UInt8 := #[]
  /-- The diagnostics that have been put out. -/
  log : String := ""

namespace Feed

/-- The next piece of input, or nothing if there is none. -/
def fetch : StateM Feed (List UInt8) :=
  modifyGet fun feed =>
    match feed.pieces with
    | [] => ([], feed)
    | piece :: rest => (piece, { feed with pieces := rest })

/-- The feed once a report has been put out. -/
def add (feed : Feed) (report : Report) : Feed :=
  { feed with output := feed.output ++ report.output, log := feed.log ++ report.log }

/-- Puts out a report. -/
def put (report : Report) : StateM Feed Unit := modify (·.add report)

/-- A last report, with what has been put out before. -/
def total (feed : Feed) (report : Report) : Report :=
  { report with output := feed.output ++ report.output, log := feed.log ++ report.log }

/-- Streams at which the rest of the input is still missing stand where others do that have all of
it. Neither ever fail. -/
structure Continues (feed : Feed) (streams whole : ScriptedInput × ScriptedOutput) : Prop where
  /-- No read fails. -/
  input : streams.1.outage = none ∧ whole.1.outage = none
  /-- Bytes are given out one at a time. -/
  chunk : streams.1.chunk = 1 ∧ whole.1.chunk = 1
  /-- No write and no flush fails. -/
  output : streams.2.outage = none ∧ whole.2.outage = none
  /-- The pieces are missing. -/
  remaining : whole.1.remaining = streams.1.remaining ++ feed.pieces.flatten
  /-- The same input has been consumed. -/
  consumed : whole.1.consumed = streams.1.consumed
  /-- With what has been put out, the same bytes have been written. -/
  stored : whole.2.stored = feed.output ++ streams.2.stored

/-- Consoles with such streams, and with the same diagnostics, that are traced alike. -/
structure Completes (feed : Feed) (console whole : ToolConsole) : Prop where
  /-- The streams stand at the same place. -/
  continues : feed.Continues console.streams whole.streams
  /-- Steps are traced alike. -/
  tracing : console.tracing = whole.tracing
  /-- With what has been put out, the diagnostics are the same. -/
  log : whole.log = feed.log ++ console.log

/-! ## Calls -/

namespace Continues

variable {feed : Feed} {streams whole : ScriptedInput × ScriptedOutput}

/-- Unless the next byte is in a piece that is missing, a read is answered alike. -/
theorem read (h : feed.Continues streams whole)
    (hfed : streams.1.remaining = [] → feed.pieces.flatten = []) :
    (InputStream.readByte streams.1).1 = (InputStream.readByte whole.1).1 ∧
      feed.Continues ((InputStream.readByte streams.1).2, streams.2)
        ((InputStream.readByte whole.1).2, whole.2) := by
  have hwhole := h.remaining
  cases hremaining : streams.1.remaining with
  | nil =>
    rw [hremaining, hfed hremaining, List.append_nil] at hwhole
    rw [ScriptedInput.readByte_of_nil h.input.1 hremaining,
      ScriptedInput.readByte_of_nil h.input.2 hwhole]
    exact ⟨rfl, h.input, h.chunk, h.output, h.remaining, h.consumed, h.stored⟩
  | cons byte rest =>
    rw [hremaining, List.cons_append] at hwhole
    rw [ScriptedInput.readByte_of_cons h.input.1 h.chunk.1 hremaining,
      ScriptedInput.readByte_of_cons h.input.2 h.chunk.2 hwhole]
    exact ⟨rfl, h.input, h.chunk, h.output, rfl, congrArg (· + 1) h.consumed, h.stored⟩

/-- A byte is written alike. -/
theorem write (h : feed.Continues streams whole) {value : Int} (hvalue : 0 ≤ value ∧ value < 256) :
    (OutputStream.writeByte value streams.2).1 = (OutputStream.writeByte value whole.2).1 ∧
      feed.Continues (streams.1, (OutputStream.writeByte value streams.2).2)
        (whole.1, (OutputStream.writeByte value whole.2).2) := by
  rw [ScriptedOutput.writeByte_eq h.output.1 hvalue, ScriptedOutput.writeByte_eq h.output.2 hvalue]
  refine ⟨rfl, h.input, h.chunk, h.output, h.remaining, h.consumed, ?_⟩
  rw [h.stored, Array.append_push]

/-- With the same calls. -/
theorem writeCalls_eq (h : feed.Continues streams whole) (value : Int) :
    writeCalls value streams.2 = writeCalls value whole.2 := by
  have hwrite {output : ScriptedOutput} (houtage : output.outage = none) (byte : UInt8) :
      (OutputStream.write byte output).1 = .accepted := by
    show (output.write byte).1 = .accepted
    simp only [ScriptedOutput.write, ScriptedOutput.nextFailure?, houtage]
  simp only [writeCalls, hwrite h.output.1, hwrite h.output.2]

/-- So the streams are at the same place once a byte has been read. -/
theorem replay_read (h : feed.Continues streams whole)
    (hfed : streams.1.remaining = [] → feed.pieces.flatten = []) :
    feed.Continues (replay [.read] streams) (replay [.read] whole) := by
  have hread := (h.read hfed).2
  obtain ⟨input, output⟩ := streams
  obtain ⟨wholeInput, wholeOutput⟩ := whole
  rwa [Brainfuck.replay_read, Brainfuck.replay_read]

/-- They are, too, once one has been written. -/
theorem replay_writeCalls (h : feed.Continues streams whole) {value : Int}
    (hvalue : 0 ≤ value ∧ value < 256) :
    feed.Continues (replay (writeCalls value streams.2) streams)
      (replay (writeCalls value streams.2) whole) := by
  have hwrite := (h.write hvalue).2
  have hcalls := h.writeCalls_eq value
  obtain ⟨input, output⟩ := streams
  obtain ⟨wholeInput, wholeOutput⟩ := whole
  dsimp only at hcalls hwrite ⊢
  rw [Brainfuck.replay_writeCalls, hcalls, Brainfuck.replay_writeCalls]
  exact hwrite

end Continues

/-! ## Steps -/

/-- Outcomes that are alike: a run in slices meets with the first where the run with all of the
input meets with the second. -/
structure Ends (feed : Feed) (outcome whole : ToolOutcome) : Prop where
  /-- They come to the same. -/
  reply : outcome.reply = whole.reply
  /-- They leave the same machine. -/
  machine : outcome.machine = whole.machine
  /-- They leave the consoles at the same place. -/
  console : feed.Completes outcome.console whole.console

/-- The next instruction of a machine reads, and there is no byte left. -/
def Starved (machine : Machine) (console : ToolConsole) : Prop :=
  machine.NextIs .input ∧ console.input.remaining = []

namespace Completes

open Machine

variable {feed : Feed} {machine : Machine} {console whole : ToolConsole}

/-- Unless it reads and the next byte is in a piece that is missing, a step cannot tell the consoles
apart. -/
theorem steppedAlike (h : feed.Completes console whole)
    (hfed : Starved machine console → feed.pieces.flatten = []) :
    machine.SteppedAlike console whole := by
  have hbounds := machine.cell.toByte_bounds machine.tape.current
  refine AnsweredAlike.steppedAlike ⟨fun hinput => ?_, fun _ => ?_, fun _ => ?_⟩
  · exact (h.continues.read fun hremaining => hfed ⟨hinput, hremaining⟩).1
  · exact (h.continues.write hbounds).1
  · exact h.continues.writeCalls_eq _

/-- It leaves the streams at the same place. -/
theorem continues_step (h : feed.Completes console whole)
    (hfed : Starved machine console → feed.pieces.flatten = []) :
    feed.Continues (machine.step console).console.streams
      (machine.step whole).console.streams := by
  have hcalls := (h.steppedAlike hfed).calls
  rw [streams_step, streams_step, ← hcalls]
  unfold stepCalls
  split
  next instruction next =>
    split
    next op =>
      exact h.continues.replay_read fun hremaining => hfed ⟨⟨instruction, next, op⟩, hremaining⟩
    next op => exact h.continues.replay_writeCalls (machine.cell.toByte_bounds _)
    next => exact h.continues
  next => exact h.continues

/-- A traced step goes alike. -/
theorem stepTraced (h : feed.Completes console whole)
    (hfed : Starved machine console → feed.pieces.flatten = []) :
    feed.Ends (machine.stepTraced console) (machine.stepTraced whole) := by
  have halike := h.steppedAlike hfed
  have hreply := reply_stepTraced_congr h.tracing halike.reply halike.after
  have hprinted : machine.printed console = machine.printed whole := by
    rw [printed, printed, stepText?, stepText?, h.tracing, hreply, halike.after]
  refine ⟨hreply, ?_, ?_, ?_, ?_⟩
  · rw [machine_stepTraced, machine_stepTraced, halike.after]
  · rw [streams_stepTraced, streams_stepTraced]
    exact h.continues_step hfed
  · rw [tracing_stepTraced, tracing_stepTraced, h.tracing]
  · rw [log_stepTraced_eq, log_stepTraced_eq, h.log, hprinted, String.append_assoc]

/-! ## Missing input -/

/-- A step that finds no input is at fault for it; it has made a call and marked the machine, and
that is all. -/
theorem stepTraced_of_starved (h : feed.Completes console whole)
    (hstarved : Starved machine console) :
    pauseOf (machine.stepTraced console).reply = .starved ∧
      (machine.stepTraced console).machine = { machine with status := .faulted } ∧
      feed.Completes (machine.stepTraced console).console whole := by
  obtain ⟨⟨instruction, hnext, hop⟩, hremaining⟩ := hstarved
  have hoperation : instruction.op = Primitive.input.op := hop
  have hread := ScriptedInput.readByte_of_nil h.continues.input.1 hremaining
  have hstep := step_of_effect_raised hnext hoperation (.inputFault hread rfl)
  rw [stepTraced_of_ended (by rw [hstep]; simp), hstep]
  refine ⟨rfl, rfl, ⟨?_, h.tracing, h.log⟩⟩
  obtain ⟨input, chunk, output, remaining, consumed, stored⟩ := h.continues
  exact ⟨input, chunk, output, remaining, consumed, stored⟩

/-- So a step that executes an instruction goes alike. -/
theorem stepTraced_of_advanced (h : feed.Completes console whole)
    (hreply : (machine.stepTraced console).reply = .advanced) :
    feed.Ends (machine.stepTraced console) (machine.stepTraced whole) := by
  refine h.stepTraced fun hstarved => ?_
  have hpause := (h.stepTraced_of_starved hstarved).1
  rw [hreply] at hpause
  cases hpause

/-- A step that is at fault for missing input has found none. -/
theorem starved_of_pauseOf (h : feed.Completes console whole)
    (hpause : pauseOf (machine.stepTraced console).reply = .starved) :
    Starved machine console := by
  obtain ⟨fault, hreply, hcause⟩ := pauseOf_eq_starved_iff.mp hpause
  have htraced : ¬ machine.Untraceable console := by
    intro huntraceable
    rw [huntraceable.stepTraced_eq] at hreply
    simp at hreply
  rw [reply_stepTraced htraced] at hreply
  rcases (exists_io_iff .exhausted).mp ⟨fault, hreply, hcause⟩ with
    ⟨-, -, hblamed⟩ | ⟨hinput, hfails, -⟩
  · -- the end of input is no fault of an output
    cases hblamed
  · refine ⟨hinput, ?_⟩
    cases hremaining : console.input.remaining with
    | nil => rfl
    | cons byte rest =>
      obtain ⟨after, hread⟩ :=
        (InputStream.exists_readByte_eq_error_iff console.input .exhausted).mpr hfails
      have hgiven :=
        ScriptedInput.readByte_of_cons h.continues.input.1 h.continues.chunk.1 hremaining
      cases hgiven.symm.trans hread

end Completes

/-! ## Slices -/

namespace Completes

open Machine

variable {feed : Feed} {console whole : ToolConsole}

/-- Unless it finds no input and more is to be fetched, a slice goes alike. -/
theorem slice (h : feed.Completes console whole) (length : Nat) (machine : Machine)
    (hfed : pauseOf (machine.runTraced length console).reply = .starved →
      feed.pieces.flatten = []) :
    feed.Ends (machine.runTraced length console) (machine.runTraced length whole) := by
  induction length generalizing machine console whole with
  | zero => exact ⟨rfl, rfl, h⟩
  | succ length ih =>
    by_cases hreply : (machine.stepTraced console).reply = .advanced
    · have hstep := h.stepTraced_of_advanced hreply
      rw [runTraced, runBy_succ_of_reply hreply] at hfed ⊢
      rw [runTraced, runBy_succ_of_reply (hstep.reply ▸ hreply), ← hstep.machine]
      exact ih hstep.console _ hfed
    · rw [runTraced, runBy_succ_of_ended hreply] at hfed ⊢
      have hstep : feed.Ends (machine.stepTraced console) (machine.stepTraced whole) :=
        h.stepTraced fun hstarved => hfed (h.stepTraced_of_starved hstarved).1
      rwa [runTraced, runBy_succ_of_ended (hstep.reply ▸ hreply)]

/-- A slice that finds no input has gone alike up to there, and has marked the machine. -/
theorem slice_of_starved (h : feed.Completes console whole) (length : Nat) (machine : Machine)
    (hpause : pauseOf (machine.runTraced length console).reply = .starved) :
    ∃ count later, machine.runTraced count whole =
        ⟨.advanced, { (machine.runTraced length console).machine with status := machine.status },
          later⟩ ∧
      feed.Completes (machine.runTraced length console).console later := by
  induction length generalizing machine console whole with
  | zero => cases hpause
  | succ length ih =>
    by_cases hreply : (machine.stepTraced console).reply = .advanced
    · have hstep := h.stepTraced_of_advanced hreply
      have hstatus : (machine.stepTraced console).machine.status = machine.status := by
        rw [machine_stepTraced]
        exact status_step_of_advanced (reply_step_of_stepTraced_advanced hreply)
      rw [runTraced, runBy_succ_of_reply hreply] at hpause ⊢
      obtain ⟨count, later, hrun, hcompletes⟩ := ih hstep.console _ hpause
      refine ⟨count + 1, later, ?_, hcompletes⟩
      rw [runTraced, runBy_succ_of_reply (hstep.reply ▸ hreply), ← hstep.machine]
      exact hstatus ▸ hrun
    · rw [runTraced, runBy_succ_of_ended hreply] at hpause ⊢
      obtain ⟨-, hmachine, hcompletes⟩ := h.stepTraced_of_starved (h.starved_of_pauseOf hpause)
      refine ⟨0, whole, ?_, hcompletes⟩
      rw [hmachine]
      rfl

/-- A slice that ends, and misses nothing, ends as a run that ends. -/
theorem ends_of_ended {steps : Nat} (h : feed.Completes console whole) (length : Nat)
    (machine : Machine) (hpause : pauseOf (machine.runTraced length console).reply ≠ .limit)
    (hfed : pauseOf (machine.runTraced length console).reply = .starved →
      feed.pieces.flatten = [])
    (hended : (machine.runTraced steps whole).reply ≠ .advanced) :
    feed.Ends (machine.runTraced length console) (machine.runTraced steps whole) := by
  have hends := h.slice length machine hfed
  have hwhole : (machine.runTraced length whole).reply ≠ .advanced := by
    rw [← hends.reply]
    exact mt pauseOf_eq_limit_iff.mpr hpause
  rwa [runTraced, runTraced, runBy_eq_runBy_of_ended hended hwhole]

end Completes

/-! ## Reports -/

/-- With what has been put out, a report of one console is that of the other. -/
theorem Completes.total_ofConsole {feed : Feed} {console whole : ToolConsole}
    (h : feed.Completes console whole) (finish : Finish) (line : String) :
    feed.total (.ofConsole console finish line) = .ofConsole whole finish line := by
  have hstored : whole.output.stored = feed.output ++ console.output.stored := h.continues.stored
  have hconsumed : whole.input.consumed = console.input.consumed := h.continues.consumed
  simp only [total, Report.ofConsole, h.log, hstored, hconsumed, String.append_assoc]

/-- So is the last report of a run in slices that of the run. -/
theorem Ends.total_ofOutcome {feed : Feed} {outcome whole : ToolOutcome}
    (h : feed.Ends outcome whole) : feed.total (.ofOutcome outcome) = .ofOutcome whole := by
  obtain ⟨reply, machine, console⟩ := outcome
  obtain ⟨wholeReply, wholeMachine, wholeConsole⟩ := whole
  obtain ⟨rfl, rfl, hcompletes⟩ := h
  have hof := hcompletes.total_ofConsole
  have hfaulted (message? : Option String) :
      feed.total (.faulted? console message?) = .faulted? wholeConsole message? := by
    cases message? <;> exact hof _ _
  cases reply with
  | advanced => exact hof _ _
  | finished => exact hof _ _
  | raised error =>
    cases error with
    | fault fault => exact hfaulted fault.message?
    | failure failure =>
      simp only [Report.ofOutcome, Report.ofRunError]
      split <;> exact hof _ _

/-- Once a report has been put out and a piece has been fetched, the consoles stand where they
stood. -/
theorem Completes.resume {feed : Feed} {console whole : ToolConsole} {bytes : List UInt8}
    {pieces : List (List UInt8)} (h : feed.Completes console whole)
    (hpieces : feed.pieces.flatten = bytes ++ pieces.flatten) :
    { feed.add (progress console) with pieces }.Completes (resume console bytes) whole where
  continues := {
    input := h.continues.input
    chunk := h.continues.chunk
    output := h.continues.output
    remaining := by
      have hremaining := h.continues.remaining
      rw [hpieces, ← List.append_assoc] at hremaining
      exact hremaining
    consumed := h.continues.consumed
    stored := by
      have hstored : whole.output.stored = feed.output ++ console.output.stored :=
        h.continues.stored
      exact hstored.trans Array.append_empty.symm }
  tracing := h.tracing
  log := by
    show whole.log = feed.log ++ (console.log ++ "") ++ ""
    rw [h.log, String.append_empty, String.append_empty]

/-! ## Whole runs -/

section Runs

variable {feed : Feed} {length : Nat} {machine : Machine} {console : ToolConsole}

/-- A slice that ends the run gives the last report. -/
theorem run_runSlices_of_ended
    (h : pauseOf (machine.runTraced length console).reply = .ended) (slices : Nat) :
    (runSlices fetch put length (slices + 1) machine console).run feed =
      (some (.ofOutcome (machine.runTraced length console)), feed) := by
  rw [runSlices]
  dsimp only
  rw [h]
  rfl

/-- A slice whose steps were all made is followed by the next one. -/
theorem run_runSlices_of_limit
    (h : pauseOf (machine.runTraced length console).reply = .limit) (slices : Nat) :
    (runSlices fetch put length (slices + 1) machine console).run feed =
      (runSlices fetch put length slices (machine.runTraced length console).machine
        (resume (machine.runTraced length console).console [])).run
          (feed.add (progress (machine.runTraced length console).console)) := by
  rw [runSlices]
  dsimp only
  rw [h]
  rfl

/-- A slice that finds no input where there is no more gives the last report. -/
theorem run_runSlices_of_starved_nil (hpieces : feed.pieces = [])
    (h : pauseOf (machine.runTraced length console).reply = .starved) (slices : Nat) :
    (runSlices fetch put length (slices + 1) machine console).run feed =
      (some (.ofOutcome
        { machine.runTraced length console with
          console := resume (machine.runTraced length console).console [] }),
        feed.add (progress (machine.runTraced length console).console)) := by
  obtain ⟨pieces, output, log⟩ := feed
  obtain rfl : pieces = [] := hpieces
  rw [runSlices]
  dsimp only
  rw [h]
  rfl

/-- A slice that finds no input where there is more is followed by the next one, from the
instruction that found none. -/
theorem run_runSlices_of_starved_cons {piece : List UInt8} {rest : List (List UInt8)}
    (hpieces : feed.pieces = piece :: rest) (hpiece : piece ≠ [])
    (h : pauseOf (machine.runTraced length console).reply = .starved) (slices : Nat) :
    (runSlices fetch put length (slices + 1) machine console).run feed =
      (runSlices fetch put length slices
        { (machine.runTraced length console).machine with status := machine.status }
        (resume (machine.runTraced length console).console piece)).run
          { feed.add (progress (machine.runTraced length console).console) with
            pieces := rest } := by
  obtain ⟨pieces, output, log⟩ := feed
  obtain rfl : pieces = piece :: rest := hpieces
  obtain ⟨byte, bytes, rfl⟩ := List.exists_cons_of_ne_nil hpiece
  rw [runSlices]
  dsimp only
  rw [h]
  rfl

end Runs

/-- A run in slices comes to a last report. With what has been put out, it is the report of the run
with all of the input. -/
theorem exists_run_runSlices_eq {length steps slices : Nat} {feed : Feed} {machine : Machine}
    {console whole : ToolConsole} (h : feed.Completes console whole)
    (hpieces : ∀ piece ∈ feed.pieces, piece ≠ []) (hlength : 0 < length)
    (hended : (machine.runTraced steps whole).reply ≠ .advanced)
    (hslices : steps + feed.pieces.length < slices) :
    ∃ report last, (runSlices fetch put length slices machine console).run feed =
        (some report, last) ∧
      last.total report = .ofOutcome (machine.runTraced steps whole) := by
  induction slices generalizing steps feed machine console whole with
  | zero => cases hslices
  | succ slices ih =>
    cases hpause : pauseOf (machine.runTraced length console).reply with
    | ended =>
      have hends := h.ends_of_ended length machine (by simp [hpause]) (by simp [hpause]) hended
      exact ⟨_, _, run_runSlices_of_ended hpause slices, hends.total_ofOutcome⟩
    | limit =>
      have hends := h.slice length machine (by simp [hpause])
      have hwhole : machine.runTraced length whole =
          ⟨.advanced, (machine.runTraced length console).machine,
            (machine.runTraced length whole).console⟩ := by
        rw [← pauseOf_eq_limit_iff.mp hpause, hends.reply, hends.machine]
      obtain ⟨more, rfl, hrun⟩ := Machine.exists_runTraced_eq_of_ended hwhole hended
      rw [run_runSlices_of_limit hpause, hrun]
      apply ih (hends.console.resume rfl) hpieces
      · rwa [← hrun]
      · show more + feed.pieces.length < slices
        omega
    | starved =>
      cases hcase : feed.pieces with
      | nil =>
        have hends := h.ends_of_ended length machine (by simp [hpause]) (by simp [hcase]) hended
        refine ⟨_, _, run_runSlices_of_starved_nil hcase hpause slices, ?_⟩
        apply Ends.total_ofOutcome
        exact ⟨hends.reply, hends.machine, hends.console.resume rfl⟩
      | cons piece rest =>
        have hpiece : piece ≠ [] := hpieces piece (by rw [hcase]; exact List.mem_cons_self)
        rw [run_runSlices_of_starved_cons hcase hpiece hpause]
        -- the instruction is tried again where the whole run has come to it
        obtain ⟨count, later, hwhole, hcompletes⟩ := h.slice_of_starved length machine hpause
        obtain ⟨more, rfl, hrun⟩ := Machine.exists_runTraced_eq_of_ended hwhole hended
        rw [hrun]
        apply ih (hcompletes.resume (by rw [hcase]; rfl))
        · intro piece hmem
          exact hpieces piece (by rw [hcase]; exact List.mem_cons_of_mem _ hmem)
        · rwa [← hrun]
        · rw [hcase, List.length_cons] at hslices
          show more + rest.length < slices
          omega

end Feed

/-- What a machine comes to in slices, however the input comes in pieces, is what the job of running
it comes to with all of the input. -/
theorem exists_run_runSlices_eq_perform {length steps slices : Nat} (pieces : List (List UInt8))
    (hpieces : ∀ piece ∈ pieces, piece ≠ []) (hlength : 0 < length) (machine : Machine)
    (debug : Bool)
    (hended : (machine.runTraced steps (toolConsole debug pieces.flatten)).reply ≠ .advanced)
    (hslices : steps + pieces.length < slices) :
    ∃ report last, (runSlices Feed.fetch Feed.put length slices machine (toolConsole debug [])).run
        { pieces } = (some report, last) ∧
      last.total report = (Job.interpret machine).perform steps debug pieces.flatten := by
  apply Feed.exists_run_runSlices_eq _ hpieces hlength hended hslices
  exact ⟨⟨⟨rfl, rfl⟩, ⟨rfl, rfl⟩, ⟨rfl, rfl⟩, rfl, rfl, rfl⟩, rfl, rfl⟩

end Brainfuck.CommandLine
