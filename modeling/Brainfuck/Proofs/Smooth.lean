import Brainfuck.Proofs.Faults
import Brainfuck.Proofs.Flaky
import Brainfuck.Proofs.Run

/-! # Runs at flaky streams

What a step can come to at streams with hitches, and the run at streams without any. A step that
neither reads nor writes is the same at all streams; one that does can fail and leave the machine as
it was.

Main definitions: `Machine.Reads`, `Machine.Writes`, `Machine.Pace`, `Machine.smoothRun`,
`Machine.Halts`, `Machine.ahead`. Main statement: each step of a smooth run that halts is one of
`Machine.Pace` (`Machine.Halts.pace_smoothRun`). -/

namespace Brainfuck

/-! ## Steps that read and write -/

namespace Machine

/-- What a step that reads can come to. -/
inductive Reads (machine : Machine) (console : Console FlakyInput FlakyOutput) :
    Outcome FlakyInput FlakyOutput → Prop where
  /-- The next byte is put into the current cell. -/
  | read {byte : UInt8} {rest : List UInt8} {later : Console FlakyInput FlakyOutput}
      (bytes : console.input.remaining = byte :: rest)
      (input : later.input = ⟨rest, console.input.hitches.tail⟩)
      (output : later.output = console.output) :
      Reads machine console
        ⟨.advanced, machine.goTo (machine.tape.write (machine.cell.fromByte byte.toNat))
          (machine.pc + 1), later⟩
  /-- The byte stays where it is; a hitch or the end of the bytes is the reason for that. -/
  | failed {error : RunError} {later : Console FlakyInput FlakyOutput}
      (reason : console.input.remaining = [] ∨
        ∃ hitch, hitch? console.input.hitches = some hitch)
      (input : later.input = { console.input with hitches := console.input.hitches.tail })
      (output : later.output = console.output) :
      Reads machine console
        ⟨.raised error, { machine with status := statusAfter machine.status error }, later⟩

/-- What a step that writes can come to. -/
inductive Writes (machine : Machine) (console : Console FlakyInput FlakyOutput) :
    Outcome FlakyInput FlakyOutput → Prop where
  /-- The byte of the current cell is stored. -/
  | written {later : Console FlakyInput FlakyOutput}
      (accepted : hitch? console.output.writes = none)
      (flushed : hitch? console.output.flushes = none) (input : later.input = console.input)
      (output : later.output = ⟨console.output.stored ++ [machine.outputByte],
        console.output.writes.tail, console.output.flushes.tail⟩) :
      Writes machine console ⟨.advanced, machine.goTo machine.tape (machine.pc + 1), later⟩
  /-- The byte is stored, and the flush fails. -/
  | unflushed {error : RunError} {failure : Failure} {later : Console FlakyInput FlakyOutput}
      (accepted : hitch? console.output.writes = none)
      (hitch : hitch? console.output.flushes = some failure) (input : later.input = console.input)
      (output : later.output = ⟨console.output.stored ++ [machine.outputByte],
        console.output.writes.tail, console.output.flushes.tail⟩) :
      Writes machine console
        ⟨.raised error, { machine with status := statusAfter machine.status error }, later⟩
  /-- The byte is not stored. -/
  | failed {error : RunError} {reason : WriteHitch} {later : Console FlakyInput FlakyOutput}
      (hitch : hitch? console.output.writes = some reason) (input : later.input = console.input)
      (output : later.output = { console.output with writes := console.output.writes.tail }) :
      Writes machine console
        ⟨.raised error, { machine with status := statusAfter machine.status error }, later⟩

section Steps

variable {machine : Machine} {instruction : Instruction}
  {console : Console FlakyInput FlakyOutput} {failure : Failure}

/-- A failed read is raised as an error, of the instruction or of the stream. -/
theorem exists_step_of_readByte_error (hnext : machine.next? = some (.plain instruction))
    (hop : instruction.op = Primitive.input.op) {after : FlakyInput}
    (h : InputStream.readByte console.input = (.error failure, after)) :
    ∃ error, machine.step console =
      ⟨.raised error, { machine with status := statusAfter machine.status error },
        { console with input := after }⟩ := by
  cases hkind : failure.kind.isInputError with
  | true => exact ⟨_, step_of_effect_raised hnext hop (.inputFault h hkind)⟩
  | false => exact ⟨_, step_of_effect_raised hnext hop (.inputFailure h hkind)⟩

/-- A failed write is raised as an error, of the instruction or of the stream. -/
theorem exists_step_of_writeByte_error (hnext : machine.next? = some (.plain instruction))
    (hop : instruction.op = Primitive.output.op) {after : FlakyOutput}
    (h : OutputStream.writeByte (machine.cell.toByte machine.tape.current) console.output =
      (.error failure, after)) :
    ∃ error, machine.step console =
      ⟨.raised error, { machine with status := statusAfter machine.status error },
        { console with output := after }⟩ := by
  cases hkind : failure.kind.isOutputError with
  | true => exact ⟨_, step_of_effect_raised hnext hop (.outputFault h hkind)⟩
  | false => exact ⟨_, step_of_effect_raised hnext hop (.outputFailure h hkind)⟩

theorem reads_step (hnext : machine.next? = some (.plain instruction))
    (hop : instruction.op = Primitive.input.op) (console : Console FlakyInput FlakyOutput) :
    machine.Reads console (machine.step console) := by
  obtain ⟨byte, rest, hbytes, hread⟩ | ⟨failure, hread, hreason⟩ :=
    FlakyInput.readByte_cases console.input
  · rw [step_of_effect hnext hop (.input hread)]
    exact .read hbytes (by simp) (by simp; rfl)
  · obtain ⟨error, hstep⟩ := exists_step_of_readByte_error hnext hop hread
    rw [hstep]
    exact .failed hreason rfl rfl

theorem writes_step (hnext : machine.next? = some (.plain instruction))
    (hop : instruction.op = Primitive.output.op) (console : Console FlakyInput FlakyOutput) :
    machine.Writes console (machine.step console) := by
  obtain ⟨hwrites, hflushes, hwrite⟩ | ⟨hwrites, failure, hflushes, hwrite⟩ |
      ⟨hitch, failure, hwrites, hwrite⟩ :=
    FlakyOutput.writeByte_cases (machine.cell.toByte_bounds machine.tape.current) console.output
  · rw [step_of_effect hnext hop (.output hwrite)]
    exact .written hwrites hflushes (by simp; rfl) (by simp; rfl)
  · obtain ⟨error, hstep⟩ := exists_step_of_writeByte_error hnext hop hwrite
    rw [hstep]
    exact .unflushed hwrites hflushes rfl rfl
  · obtain ⟨error, hstep⟩ := exists_step_of_writeByte_error hnext hop hwrite
    rw [hstep]
    exact .failed hwrites rfl rfl

end Steps

end Machine

/-! ## All steps -/

/-- The status after a step that raised no error. -/
def Reply.statusAfter (status : Status) : Reply → Status
  | .finished => .halted
  | _ => status

namespace Machine

/-- What a step can come to that raises no error, or that reads or writes. -/
inductive Pace (machine : Machine) (console : Console FlakyInput FlakyOutput) :
    Outcome FlakyInput FlakyOutput → Prop where
  /-- The streams are not touched, and the step is the same at all streams and with any status. -/
  | quiet {reply : Reply} {next : Machine} {later : Console FlakyInput FlakyOutput}
      (input : later.input = console.input) (output : later.output = console.output)
      (same : ∀ (status : Status) (other : Console FlakyInput FlakyOutput), ∃ other',
        { machine with status }.step other =
          ⟨reply, { next with status := reply.statusAfter status }, other'⟩ ∧
        other'.input = other.input ∧ other'.output = other.output) :
      Pace machine console ⟨reply, next, later⟩
  /-- The step reads. -/
  | reads {instruction : Instruction} {outcome : Outcome FlakyInput FlakyOutput}
      (next : machine.next? = some (.plain instruction))
      (op : instruction.op = Primitive.input.op) (reads : machine.Reads console outcome) :
      Pace machine console outcome
  /-- The step writes. -/
  | writes {instruction : Instruction} {outcome : Outcome FlakyInput FlakyOutput}
      (next : machine.next? = some (.plain instruction))
      (op : instruction.op = Primitive.output.op) (writes : machine.Writes console outcome) :
      Pace machine console outcome

end Machine

/-- An operation that neither reads nor writes leaves the streams alone, whatever they are. -/
theorem Primitive.Effect.with_streams {ι ο : Type} [InputStream ι] [OutputStream ο] {rules : Rules}
    {instruction : Instruction} {operation : Primitive} {world after : World ι ο}
    (h : operation.Effect rules instruction world none after) (hinput : operation ≠ .input)
    (houtput : operation ≠ .output) :
    after.input = world.input ∧ after.output = world.output ∧ ∀ (input : ι) (output : ο),
      operation.Effect rules instruction { world with input, output } none
        { after with input, output } := by
  cases h with
  | right inside => exact ⟨rfl, rfl, fun _ _ => .right inside⟩
  | grow last mayGrow => exact ⟨rfl, rfl, fun _ _ => .grow last mayGrow⟩
  | left inside => exact ⟨rfl, rfl, fun _ _ => .left inside⟩
  | add => exact ⟨rfl, rfl, fun _ _ => .add⟩
  | sub => exact ⟨rfl, rfl, fun _ _ => .sub⟩
  | output => exact absurd rfl houtput
  | input => exact absurd rfl hinput

namespace Machine

section Paces

variable {machine : Machine} {console : Console FlakyInput FlakyOutput}
  {outcome : Outcome FlakyInput FlakyOutput}

/-- A step that raises no error is one of these. -/
theorem pace_step (hreply : ∀ error, (machine.step console).reply ≠ .raised error) :
    machine.Pace console (machine.step console) := by
  by_cases hinput : ∃ instruction, machine.next? = some (.plain instruction) ∧
      instruction.op = Primitive.input.op
  · obtain ⟨instruction, hnext, hop⟩ := hinput
    exact .reads hnext hop (reads_step hnext hop console)
  by_cases houtput : ∃ instruction, machine.next? = some (.plain instruction) ∧
      instruction.op = Primitive.output.op
  · obtain ⟨instruction, hnext, hop⟩ := houtput
    exact .writes hnext hop (writes_step hnext hop console)
  -- every other step does the same at all streams
  have hstepped := machine.stepped_step console
  generalize machine.step console = outcome at hstepped hreply
  cases hstepped with
  | finished ended =>
    exact .quiet rfl rfl fun status other => ⟨other, step_of_next?_eq_none ended, rfl, rfl⟩
  | raised next op effect => exact absurd rfl (hreply _)
  | skipped next zero =>
    refine .quiet (by simp) (by simp) fun status other => ?_
    exact ⟨_, step_of_opener_zero next zero, by simp, by simp⟩
  | entered next nonzero =>
    refine .quiet (by simp) (by simp) fun status other => ?_
    exact ⟨_, step_of_opener_nonzero next nonzero, by simp, by simp⟩
  | returned next =>
    refine .quiet (by simp) (by simp) fun status other => ?_
    exact ⟨_, step_of_closer next, by simp, by simp⟩
  | passed next bracket =>
    refine .quiet (by simp) (by simp) fun status other => ?_
    exact ⟨_, step_of_unlinked next bracket, by simp, by simp⟩
  | @completed instruction operation after next op effect =>
    obtain ⟨hsameInput, hsameOutput, hother⟩ := effect.with_streams
      (fun h => hinput ⟨instruction, next, h ▸ op⟩) (fun h => houtput ⟨instruction, next, h ▸ op⟩)
    refine .quiet (by simp [hsameInput, world]) (by simp [hsameOutput, world])
      fun status other => ?_
    have heffect : operation.Effect { machine with status }.rules instruction
        ({ machine with status }.world other) none _ := hother other.input other.output
    have hnext : { machine with status }.next? = some (.plain instruction) := next
    have hstep := step_of_effect hnext op heffect
    exact ⟨_, hstep, by simp, by simp⟩

/-- Stored bytes stay. -/
theorem Pace.isPrefix_stored (h : machine.Pace console outcome) :
    console.output.stored <+: outcome.console.output.stored := by
  cases h with
  | quiet input output same => simp [output]
  | reads next op reads => cases reads <;> simp [*]
  | writes next op writes => cases writes <;> simp [*]

end Paces

end Machine

/-! ## The uninterrupted run -/

/-- A console whose streams never go wrong, with all of its input in one piece. -/
def Console.smooth (data : List UInt8) : Console FlakyInput FlakyOutput :=
  ⟨{ remaining := data }, {}, false, ""⟩

namespace Machine

/-- Some steps of a run at streams that never go wrong. -/
def smoothRun (first : Machine) (data : List UInt8) (limit : Nat) :
    Outcome FlakyInput FlakyOutput :=
  first.run limit (.smooth data)

/-- At streams that never go wrong, the machine executes a number of instructions and then halts. -/
structure Halts (first : Machine) (data : List UInt8) (count : Nat) : Prop where
  /-- The instructions are executed. -/
  advances : (first.smoothRun data count).reply = .advanced
  /-- The step after them ends the run. -/
  finishes : (first.smoothRun data (count + 1)).reply = .finished

/-- The bytes that the uninterrupted run, which halts after `count` instructions, still writes after
some steps. -/
def ahead (first : Machine) (data : List UInt8) (count limit : Nat) : List UInt8 :=
  (first.smoothRun data (count + 1)).console.output.stored.drop
    (first.smoothRun data limit).console.output.stored.length

/-- A step that stores nothing leaves the bytes ahead. -/
theorem ahead_succ {first : Machine} {data : List UInt8} {count limit : Nat}
    (h : (first.smoothRun data (limit + 1)).console.output =
      (first.smoothRun data limit).console.output) :
    first.ahead data count (limit + 1) = first.ahead data count limit := by
  rw [ahead, ahead, h]

namespace Halts

variable {first : Machine} {data : List UInt8} {count limit : Nat}

/-- The run stays as it is once it has ended. -/
theorem smoothRun_of_lt (h : first.Halts data count) (hlimit : count < limit) :
    first.smoothRun data limit = first.smoothRun data (count + 1) := by
  obtain ⟨more, rfl⟩ := Nat.le.dest (Nat.succ_le_of_lt hlimit)
  exact run_add_of_ended (by rw [← smoothRun, h.finishes]; simp) more

/-- Until then it goes on. -/
theorem reply_of_le (h : first.Halts data count) (hlimit : limit ≤ count) :
    (first.smoothRun data limit).reply = .advanced := by
  obtain ⟨more, rfl⟩ := Nat.le.dest hlimit
  refine Decidable.byContradiction fun hended => hended ?_
  rw [smoothRun, ← run_add_of_ended hended more]
  exact h.advances

theorem reply_of_lt (h : first.Halts data count) (hlimit : count < limit) :
    (first.smoothRun data limit).reply = .finished := by
  rw [h.smoothRun_of_lt hlimit, h.finishes]

/-- The last instruction is followed by the end of the program. -/
theorem smoothRun_succ_count (h : first.Halts data count) :
    (first.smoothRun data count).machine.next? = none ∧
      first.smoothRun data (count + 1) =
        ⟨.finished, { (first.smoothRun data count).machine with status := .halted },
          (first.smoothRun data count).console⟩ := by
  have hstep : first.smoothRun data (count + 1) = _ := run_succ_of_reply_eq_advanced h.advances
  have hfinishes := h.finishes
  rw [hstep] at hfinishes ⊢
  have hnext := reply_step_eq_finished_iff.mp hfinishes
  exact ⟨hnext, step_of_next?_eq_none hnext⟩

/-- The run goes step by step, also past its end. -/
theorem step_smoothRun (h : first.Halts data count) (limit : Nat) :
    (first.smoothRun data limit).machine.step (first.smoothRun data limit).console =
      first.smoothRun data (limit + 1) := by
  by_cases hlimit : limit ≤ count
  · exact (run_succ_of_reply_eq_advanced (h.reply_of_le hlimit)).symm
  · rw [h.smoothRun_of_lt (Nat.lt_of_not_le hlimit),
      h.smoothRun_of_lt (Nat.lt_succ_of_lt (Nat.lt_of_not_le hlimit))]
    obtain ⟨hnext, hlast⟩ := h.smoothRun_succ_count
    rw [hlast]
    exact step_of_next?_eq_none hnext

theorem le_of_advanced (h : first.Halts data count)
    (hreply : (first.smoothRun data limit).reply = .advanced) : limit ≤ count := by
  refine Nat.le_of_not_lt fun hlimit => ?_
  rw [h.reply_of_lt hlimit] at hreply
  cases hreply

/-- No error is raised. -/
theorem reply_ne_raised (h : first.Halts data count) (limit : Nat) (error : RunError) :
    (first.smoothRun data limit).reply ≠ .raised error := by
  by_cases hlimit : limit ≤ count
  · simp [h.reply_of_le hlimit]
  · simp [h.reply_of_lt (Nat.lt_of_not_le hlimit)]

theorem pace_smoothRun (h : first.Halts data count) (limit : Nat) :
    (first.smoothRun data limit).machine.Pace (first.smoothRun data limit).console
      (first.smoothRun data (limit + 1)) := by
  have hreply := h.reply_ne_raised (limit + 1)
  rw [← h.step_smoothRun limit] at hreply ⊢
  exact pace_step hreply

/-- What it has stored stays to its end. -/
theorem isPrefix_stored (h : first.Halts data count) (limit : Nat) :
    (first.smoothRun data limit).console.output.stored <+:
      (first.smoothRun data (count + 1)).console.output.stored := by
  have hmore (more : Nat) : (first.smoothRun data limit).console.output.stored <+:
      (first.smoothRun data (limit + more)).console.output.stored := by
    induction more with
    | zero => exact List.prefix_rfl
    | succ more ih => exact ih.trans (h.pace_smoothRun (limit + more)).isPrefix_stored
  have hlast : count < limit + (count + 1) := by omega
  rw [← h.smoothRun_of_lt hlast]
  exact hmore (count + 1)

/-- What has been stored and what is still to be stored make up all the output. -/
theorem stored_append_ahead (h : first.Halts data count) (limit : Nat) :
    (first.smoothRun data limit).console.output.stored ++ first.ahead data count limit =
      (first.smoothRun data (count + 1)).console.output.stored :=
  List.prefix_iff_eq_append.mp (h.isPrefix_stored limit)

/-- A step that stores a byte takes it from the bytes ahead. -/
theorem ahead_eq_cons (h : first.Halts data count) {byte : UInt8}
    (hstored : (first.smoothRun data (limit + 1)).console.output.stored =
      (first.smoothRun data limit).console.output.stored ++ [byte]) :
    first.ahead data count limit = byte :: first.ahead data count (limit + 1) := by
  have hnext := h.stored_append_ahead (limit + 1)
  rw [← h.stored_append_ahead limit, hstored, List.append_assoc, List.singleton_append] at hnext
  exact (List.append_cancel_left hnext).symm

/-- A machine that follows the uninterrupted run halts when that run does. -/
theorem statusAfter_eq_halted_iff (h : first.Halts data count) {status : Status}
    (hstatus : status = .halted ↔ count < limit) :
    (first.smoothRun data (limit + 1)).reply.statusAfter status = .halted ↔ count < limit + 1 := by
  by_cases hlimit : limit + 1 ≤ count
  · rw [h.reply_of_le hlimit]
    show status = .halted ↔ _
    rw [hstatus]
    omega
  · rw [h.reply_of_lt (Nat.lt_of_not_le hlimit)]
    simp [Reply.statusAfter, Nat.lt_of_not_le hlimit]

end Halts

theorem statusAfter_ne_halted {status : Status} (h : status ≠ .halted) (error : RunError) :
    statusAfter status error ≠ .halted := by
  rw [statusAfter]
  split
  · simp
  · exact h

end Machine

end Brainfuck
