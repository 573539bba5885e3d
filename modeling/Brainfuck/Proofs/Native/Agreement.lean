import Brainfuck.Proofs.Native.Point
import Brainfuck.Proofs.Native.Streams
import Brainfuck.Stream.Scripted

/-! # Native runs and machines

A native run and a machine with a fixed tape of bytes, side by side. They come to the same
instructions with the same cells and make the same calls on the streams; the machine takes two steps
where a loop end leads into the body again. They end in the same way, but for one case: a write that
fails as the end of input is passed on by the machine, and blamed on the instruction by a native
run.

Main definitions: `SameEnd`, `Agrees`, `Matches`, `Together`. Main statement: a native run agrees
with a new machine (`agrees_new`). -/

namespace Brainfuck.Native

open Ir Build

variable {ι ο : Type}

/-! ## What agreement means -/

/-- A machine and a native run over a tape of `size` cells have ended alike, where the code of the
native run returned a word: the index of the instruction that was not executed, if there is one. -/
inductive SameEnd (program : LinkedProgram) (size : Int) :
    Outcome ι ο → Int → Result ι ο → Prop where
  /-- The program ended. -/
  | finished {last : Machine} {later after : Console ι ο} {tape : Array UInt8}
      (cells : last.tape.cells = tape.map fun byte => (byte.toNat : Int))
      (length : (tape.size : Int) = size) (streams : after.streams = later.streams) :
      SameEnd program size ⟨.finished, last, later⟩ noFault ⟨.finished tape, after⟩
  /-- An instruction raised an error. -/
  | raised {error : RunError} {last : Machine} {later after : Console ι ο}
      (regular : ∀ failure, error = .failure failure → failure.kind.isEndOfInput = false)
      (streams : after.streams = later.streams) :
      SameEnd program size ⟨.raised error, last, later⟩ last.pc ⟨.raised error, after⟩
  /-- A write failed as the end of input. -/
  | blamed {instruction : Instruction} {failure : Failure} {last : Machine}
      {later after : Console ι ο}
      (entry : program.instructions[last.pc]? = some (.plain instruction))
      (op : instruction.op = .output) (kind : failure.kind.isEndOfInput = true)
      (streams : after.streams = later.streams) :
      SameEnd program size ⟨.raised (.failure failure), last, later⟩ last.pc
        ⟨.raised (.fault ⟨program.file, instruction, .io failure⟩), after⟩

/-- A machine and a native run do the same: each ends if the other does, and alike; and what either
has called within any limit is a beginning of what the other calls, so the two make the same calls
on the streams, in the same order and with the same arguments. -/
structure Agrees [InputStream ι] [OutputStream ο] (program : LinkedProgram) (size : Int)
    (machine : Machine) (console : Console ι ο) : Prop where
  /-- If the machine ends, so does the native run. -/
  machine_ends : ∀ limit, (machine.run limit console).reply ≠ .advanced →
    ∃ limit' word, word? limit' program size console = some word ∧
      SameEnd program size (machine.run limit console) word (run limit' program size console)
  /-- If the native run ends, so does the machine. -/
  native_ends : ∀ limit, (run limit program size console).ending ≠ .unfinished →
    ∃ limit' word, word? limit program size console = some word ∧
      SameEnd program size (machine.run limit' console) word (run limit program size console)
  /-- The calls of the machine are calls of the native run. -/
  machine_calls : ∀ limit, ∃ limit',
    machine.calls limit console <+: calls limit' program size console
  /-- The calls of the native run are calls of the machine. -/
  native_calls : ∀ limit, ∃ limit',
    calls limit program size console <+: machine.calls limit' console
  /-- The machine does nothing else to the streams. -/
  machine_streams : ∀ limit, (machine.run limit console).console.streams =
    replay (machine.calls limit console) console.streams
  /-- The native run does nothing else to the streams. -/
  native_streams : ∀ limit, (run limit program size console).console.streams =
    replay (calls limit program size console) console.streams

/-! ## Machines at points of native runs -/

/-- What the operations act on at a point of a native run. -/
def Point.world (point : Point (CallLog ι ο)) : World ι ο :=
  ⟨⟨point.tape.map fun byte => (byte.toNat : Int), point.head⟩, point.host.console.input,
    point.host.console.output⟩

/-- What the operations of a native run go by. -/
def rules (program : LinkedProgram) : Rules := ⟨program.file, .byte, false⟩

/-- A machine is at a point of a native run, in which no call has failed yet. -/
structure Matches (program : LinkedProgram) (machine : Machine) (console : Console ι ο)
    (point : Point (CallLog ι ο)) : Prop where
  /-- The machine runs the program. -/
  program_eq : machine.program = program
  /-- It has a fixed tape of bytes. -/
  rules_eq : machine.rules = rules program
  /-- It is at the instruction of the point. -/
  pc_eq : machine.pc = point.index
  /-- Cells, data pointer and streams are the same. -/
  world_eq : machine.world console = point.world
  /-- No call has failed. -/
  failures_eq : point.host.failures = []

namespace Point

variable {point : Point (CallLog ι ο)} {byte : UInt8}

theorem current_world (h : point.tape[point.head]? = some byte) :
    point.world.tape.current = byte.toNat := by
  simp [world, Tape.current, h]

theorem size_world (point : Point (CallLog ι ο)) : point.world.tape.size = point.tape.size := by
  simp [world, Tape.size]

theorem write_world (point : Point (CallLog ι ο)) (byte : UInt8) :
    point.world.tape.write byte.toNat =
      ⟨(point.tape.setIfInBounds point.head byte).map fun byte => (byte.toNat : Int),
        point.head⟩ := by
  simp [world, Tape.write]

end Point

/-! ## Bytes and failures -/

theorem increment_byte (byte : UInt8) :
    CellKind.byte.increment byte.toNat = ((byte + 1).toNat : Int) := by
  show ((byte.toNat : Int) + 1) % 256 = _
  rw [UInt8.toNat_add]
  simp

theorem decrement_byte (byte : UInt8) :
    CellKind.byte.decrement byte.toNat = ((byte - 1).toNat : Int) := by
  show ((byte.toNat : Int) - 1) % 256 = _
  rw [UInt8.toNat_sub]
  have := byte.toNat_lt
  simp
  omega

theorem toByte_byte (byte : UInt8) : CellKind.byte.toByte byte.toNat = byte.toNat := by
  show (byte.toNat : Int) % 256 = _
  have := byte.toNat_lt
  omega

theorem fromByte_byte (byte : UInt8) : CellKind.byte.fromByte byte.toNat = byte.toNat :=
  toByte_byte byte

/-- Only the end of input is an input error and not an output error. -/
theorem isInputError_eq (kind : FailureKind) :
    kind.isInputError = (kind.isOutputError || kind.isEndOfInput) := by
  cases kind <;> rfl

/-! ## Reading a match -/

namespace Matches

variable {program : LinkedProgram} {machine : Machine} {console : Console ι ο}
  {point : Point (CallLog ι ο)}

theorem next?_eq (h : Matches program machine console point) :
    machine.next? = program.instructions[point.index]? := by
  rw [Machine.next?, h.program_eq, h.pc_eq]

theorem cell_eq (h : Matches program machine console point) : machine.cell = .byte :=
  congrArg Rules.cell h.rules_eq

theorem output_eq (h : Matches program machine console point) :
    console.output = point.host.console.output :=
  congrArg World.output h.world_eq

theorem current_eq (h : Matches program machine console point) {byte : UInt8}
    (cell : point.tape[point.head]? = some byte) : machine.tape.current = byte.toNat :=
  (congrArg (fun world => world.tape.current) h.world_eq).trans (Point.current_world cell)

/-- A machine that goes to another instruction is at another point. -/
theorem goTo (h : Matches program machine console point) {target : Nat} {later : Console ι ο}
    (hworld : (machine.goTo machine.tape target).world later = machine.world console) :
    Matches program (machine.goTo machine.tape target) later { point with index := target } :=
  ⟨h.program_eq, h.rules_eq, rfl, hworld.trans h.world_eq, h.failures_eq⟩

end Matches

/-! ## One instruction -/

/-- An index that the code returns is explained by its instruction. -/
theorem conclude_index (program : LinkedProgram) (index : Nat) (tape : Array UInt8)
    (log : CallLog ι ο) :
    conclude program (.returned index tape log) =
      ⟨explain program log.failures index, log.console⟩ := by
  have hindex : (index : Int) ≠ noFault := by
    show (index : Int) ≠ -1
    omega
  rw [conclude, if_neg hindex]

section Instructions

variable [InputStream ι] [OutputStream ο] {source : Program} {program : LinkedProgram}
  {machine : Machine} {console : Console ι ο} {point next : Point (CallLog ι ο)}
  {made : List (HostCall × CallLog ι ο)} {calls : List StreamCall}

/-- After some calls on the streams, the machine is at a point. -/
def Comes (program : LinkedProgram) (machine : Machine) (console : Console ι ο)
    (calls : List StreamCall) (next : Point (CallLog ι ο)) : Prop :=
  ∃ count machine' console', machine.run (count + 1) console = ⟨.advanced, machine', console'⟩ ∧
    machine.calls (count + 1) console = calls ∧ Matches program machine' console' next

/-- A machine that is at a point after one step. -/
theorem Comes.of_step {machine' : Machine} {console' : Console ι ο}
    (hstep : machine.step console = ⟨.advanced, machine', console'⟩)
    (hcalls : machine.stepCalls console = calls) (h : Matches program machine' console' next) :
    Comes program machine console calls next := by
  refine ⟨0, machine', console', ?_, ?_, h⟩
  · rw [Machine.run_succ_of_advanced hstep, Machine.run_zero]
  · rw [Machine.calls_succ_of_advanced hstep, hcalls, Machine.calls, List.append_nil]

/-- What a machine comes to after a step without calls, it comes to. -/
theorem Comes.after_step {machine' : Machine} {console' : Console ι ο}
    (hstep : machine.step console = ⟨.advanced, machine', console'⟩)
    (hcalls : machine.stepCalls console = []) (h : Comes program machine' console' calls next) :
    Comes program machine console calls next := by
  obtain ⟨count, last, later, hrun, hmade, hmatches⟩ := h
  refine ⟨count + 1, last, later, ?_, ?_, hmatches⟩
  · rw [Machine.run_succ_of_advanced hstep, hrun]
  · rw [Machine.calls_succ_of_advanced hstep, hcalls, hmade, List.nil_append]

/-- A plain operation that the machine completes takes it to the next point. -/
theorem Matches.comes_of_effect (h : Matches program machine console point)
    {instruction : Instruction} {operation : Primitive}
    (entry : program.instructions[point.index]? = some (.plain instruction))
    (effect : operation.Effect (rules program) instruction point.world none next.world)
    (hop : instruction.op = operation.op) (hindex : next.index = point.index + 1)
    (hfailures : next.host.failures = []) (hcalls : machine.stepCalls console = calls) :
    Comes program machine console calls next := by
  rw [← h.rules_eq, ← h.world_eq] at effect
  obtain ⟨later, hstep, hworld⟩ := Machine.exists_step_of_effect (h.next?_eq.trans entry) hop effect
  exact .of_step hstep hcalls
    ⟨h.program_eq, h.rules_eq, by rw [hindex, ← h.pc_eq]; rfl, hworld, hfailures⟩

section Loop

variable {instruction partner : Instruction} {target : Nat} {byte : UInt8}

theorem Matches.comes_skipped (h : Matches program machine console point)
    (entry : program.instructions[point.index]? = some (.opener instruction target partner))
    (cell : point.tape[point.head]? = some 0) :
    Comes program machine console [] { point with index := target + 1 } := by
  have hnext := h.next?_eq.trans entry
  obtain ⟨later, hstep, hworld⟩ :=
    Machine.exists_step_of_opener_zero console hnext (h.current_eq cell)
  exact .of_step hstep (by simp [Machine.stepCalls, hnext]) (h.goTo hworld)

theorem Matches.comes_entered (h : Matches program machine console point)
    (entry : program.instructions[point.index]? = some (.opener instruction target partner))
    (cell : point.tape[point.head]? = some byte) (nonzero : byte ≠ 0) :
    Comes program machine console [] { point with index := point.index + 1 } := by
  have hnext := h.next?_eq.trans entry
  have hcurrent : machine.tape.current ≠ 0 := by
    rw [h.current_eq cell]
    intro hzero
    exact nonzero (UInt8.toNat_inj.mp (Int.ofNat_inj.mp hzero))
  obtain ⟨later, hstep, hworld⟩ :=
    Machine.exists_step_of_opener_nonzero console hnext hcurrent
  have hmatches := h.goTo hworld
  rw [h.pc_eq] at hmatches hstep
  exact .of_step hstep (by simp [Machine.stepCalls, hnext]) hmatches

/-- From a loop end the machine goes back to the loop start. -/
theorem Matches.comes_of_closer (h : Matches program machine console point)
    (entry : program.instructions[point.index]? = some (.closer instruction target partner))
    (hback : ∀ {machine' : Machine} {console' : Console ι ο},
      Matches program machine' console' { point with index := target } →
        Comes program machine' console' [] next) :
    Comes program machine console [] next := by
  have hnext := h.next?_eq.trans entry
  obtain ⟨later, hstep, hworld⟩ := Machine.exists_step_of_closer console hnext
  exact .after_step hstep (by simp [Machine.stepCalls, hnext]) (hback (h.goTo hworld))

end Loop

/-- Where a point of a native run leads to another, the machine comes there with the same calls on
the streams. -/
theorem Matches.comes_of_advances (hlink : source.link = .ok program)
    (h : Matches program machine console point)
    (hadvances : point.Advances program made (.point next)) :
    Comes program machine console (streamCalls made) next := by
  cases hadvances with
  | @right instruction entry op inside =>
    have hsize := point.size_world
    have effect : Primitive.right.Effect (rules program) instruction point.world none _ :=
      .right (by rw [hsize]; exact Nat.ne_of_lt inside)
    exact h.comes_of_effect entry effect op rfl h.failures_eq
      (by simp [Machine.stepCalls, h.next?_eq, entry, op, streamCalls])
  | @left instruction entry op inside =>
    have effect : Primitive.left.Effect (rules program) instruction point.world none _ :=
      .left inside
    exact h.comes_of_effect entry effect op rfl h.failures_eq
      (by simp [Machine.stepCalls, h.next?_eq, entry, op, streamCalls])
  | @add instruction byte entry op cell =>
    have effect : Primitive.add.Effect (rules program) instruction point.world none _ := .add
    rw [Point.current_world cell, rules, increment_byte, Point.write_world] at effect
    exact h.comes_of_effect entry effect op rfl h.failures_eq
      (by simp [Machine.stepCalls, h.next?_eq, entry, op, streamCalls])
  | @sub instruction byte entry op cell =>
    have effect : Primitive.sub.Effect (rules program) instruction point.world none _ := .sub
    rw [Point.current_world cell, rules, decrement_byte, Point.write_world] at effect
    exact h.comes_of_effect entry effect op rfl h.failures_eq
      (by simp [Machine.stepCalls, h.next?_eq, entry, op, streamCalls])
  | @output instruction byte entry op cell accepted =>
    rcases point.host.putByte_cases byte with ⟨after, hwrite, hput⟩ | ⟨failure, after, hwrite, hput⟩
    · have hreply : OutputStream.writeByte ((rules program).cell.toByte point.world.tape.current)
          point.world.output = (.ok (), after) := by
        rw [Point.current_world cell, rules, toByte_byte]
        exact hwrite
      have effect : Primitive.output.Effect (rules program) instruction point.world none _ :=
        .output hreply
      rw [hput]
      refine h.comes_of_effect entry effect op rfl h.failures_eq ?_
      simp [Machine.stepCalls, h.next?_eq, entry, op, streamCalls, CallLog.streamCalls, h.cell_eq,
        h.current_eq cell, toByte_byte, h.output_eq]
    · -- a write that fails replies one
      rw [hput] at accepted
      exact absurd accepted (show ¬ Width.reply.residue 1 = 0 by decide)
  | @input instruction entry op inside given =>
    rcases point.host.getByte_cases with ⟨byte, after, hread, hget⟩ | ⟨failure, after, hread, hget⟩
    · have hreply : InputStream.readByte point.world.input = (.ok byte, after) := hread
      have effect : Primitive.input.Effect (rules program) instruction point.world none _ :=
        .input hreply
      rw [rules, fromByte_byte, Point.write_world] at effect
      rw [hget, ofNat_residue_reply]
      exact h.comes_of_effect entry effect op rfl h.failures_eq
        (by simp [Machine.stepCalls, h.next?_eq, entry, op, streamCalls, CallLog.streamCalls])
    · -- a read that fails replies minus one
      rw [hget] at given
      exact absurd given (show ¬ 0 ≤ Width.reply.signed (Width.reply.residue (-1)) by decide)
  | skipped entry cell => exact h.comes_skipped entry cell
  | entered entry cell nonzero => exact h.comes_entered entry cell nonzero
  -- the machine goes back to the loop start and tests the cell there
  | ended entry cell =>
    have horigin := ((Program.paired_of_link_eq_ok hlink).origin _ _ _ _ entry).1
    exact h.comes_of_closer entry fun hback => hback.comes_skipped horigin cell
  | again entry cell nonzero =>
    have horigin := ((Program.paired_of_link_eq_ok hlink).origin _ _ _ _ entry).1
    exact h.comes_of_closer entry fun hback => hback.comes_entered horigin cell nonzero

/-- A plain operation that cannot be completed ends the run of the machine. -/
theorem Matches.run_of_effect (h : Matches program machine console point)
    {instruction : Instruction} {operation : Primitive} {error : RunError} {after : World ι ο}
    (entry : program.instructions[point.index]? = some (.plain instruction))
    (effect : operation.Effect (rules program) instruction point.world (some error) after)
    (hop : instruction.op = operation.op) :
    ∃ last later, machine.run 1 console = ⟨.raised error, last, later⟩ ∧
      machine.calls 1 console = machine.stepCalls console ∧ last.pc = point.index ∧
      later.streams = (after.input, after.output) := by
  rw [← h.rules_eq, ← h.world_eq] at effect
  obtain ⟨last, later, hstep, hpc, hworld⟩ :=
    Machine.exists_step_of_effect_raised (h.next?_eq.trans entry) hop effect
  refine ⟨last, later, Machine.run_succ_of_raised hstep 0, ?_, hpc.trans h.pc_eq, ?_⟩
  · exact Machine.calls_succ_of_ended (by rw [hstep]; simp) 0
  · rw [← hworld]
    rfl

/-- If the index is explained by the same error, the native run ends alike. -/
theorem Matches.ends_of_effect (h : Matches program machine console point) {size : Int}
    {instruction : Instruction} {operation : Primitive} {error : RunError} {after : World ι ο}
    (entry : program.instructions[point.index]? = some (.plain instruction))
    (effect : operation.Effect (rules program) instruction point.world (some error) after)
    (hop : instruction.op = operation.op) {tape : Array UInt8} {log : CallLog ι ο}
    (hcalls : machine.stepCalls console = calls)
    (hstreams : log.console.streams = (after.input, after.output))
    (hexplain : explain program log.failures point.index = .raised error)
    (regular : ∀ failure, error = .failure failure → failure.kind.isEndOfInput = false) :
    machine.calls 1 console = calls ∧
      SameEnd program size (machine.run 1 console) point.index
        (conclude program (.returned point.index tape log)) := by
  obtain ⟨last, later, hrun, hmade, hpc, hlater⟩ := h.run_of_effect entry effect hop
  rw [hrun, conclude_index, hexplain, ← hpc]
  exact ⟨hmade.trans hcalls, .raised regular (hstreams.trans hlater.symm)⟩

/-- A byte that is put and refused ends both alike, but for a write that fails as a read may. -/
theorem Matches.ends_of_refused {count : Nat} (h : Matches program machine console point)
    {instruction : Instruction} {byte : UInt8} {tape : Array UInt8}
    (entry : program.instructions[point.index]? = some (.plain instruction))
    (op : instruction.op = .output) (cell : point.tape[point.head]? = some byte)
    (refused : Width.reply.residue (Host.putByte byte point.host).1 ≠ 0) :
    machine.calls 1 console = streamCalls [(.put byte, point.host)] ∧
      SameEnd program count (machine.run 1 console) point.index
        (conclude program
          (.returned point.index tape (Host.putByte byte point.host).2)) := by
  have hcalls : machine.stepCalls console = streamCalls [(.put byte, point.host)] := by
    simp [Machine.stepCalls, h.next?_eq, entry, op, streamCalls, CallLog.streamCalls, h.cell_eq,
      h.current_eq cell, toByte_byte, h.output_eq]
  rcases point.host.putByte_cases byte with ⟨after, hwrite, hput⟩ | ⟨failure, after, hwrite, hput⟩
  · rw [hput] at refused
    exact absurd rfl refused
  have hreply : OutputStream.writeByte ((rules program).cell.toByte point.world.tape.current)
      point.world.output = (.error failure, after) := by
    rw [Point.current_world cell, rules, toByte_byte]
    exact hwrite
  rw [hput, h.failures_eq]
  cases blamed : failure.kind.isOutputError with
  | true =>
    have effect : Primitive.output.Effect (rules program) instruction point.world _ _ :=
      .outputFault hreply blamed
    have hcall : isCallError failure.kind = true := by
      rw [isCallError, isInputError_eq, blamed, Bool.true_or]
    refine h.ends_of_effect entry effect op hcalls rfl ?_ (by simp)
    simp [explain, entry, Linked.op, Linked.instruction, op, rules, hcall]
  | false =>
    have effect : Primitive.output.Effect (rules program) instruction point.world _ _ :=
      .outputFailure hreply blamed
    -- a native run does not tell a failed write from a failed read
    cases hkind : failure.kind.isEndOfInput with
    | true =>
      have hcall : isCallError failure.kind = true := by
        rw [isCallError, isInputError_eq, hkind, Bool.or_true]
      obtain ⟨last, later, hrun, hmade, hpc, hlater⟩ := h.run_of_effect entry effect op
      have hexplain : explain program [failure] point.index =
          .raised (.fault ⟨program.file, instruction, .io failure⟩) := by
        simp [explain, entry, Linked.op, Linked.instruction, op, hcall]
      rw [hrun, conclude_index, hexplain, ← hpc]
      rw [← hpc] at entry
      exact ⟨hmade.trans hcalls, .blamed entry op hkind hlater.symm⟩
    | false =>
      have hcall : isCallError failure.kind = false := by
        rw [isCallError, isInputError_eq, blamed, hkind, Bool.or_self]
      refine h.ends_of_effect entry effect op hcalls rfl ?_ ?_
      · simp [explain, entry, Linked.op, Linked.instruction, op, hcall]
      · rintro failure' herror
        rw [← RunError.failure.inj herror]
        exact hkind

/-- A byte that is asked for in vain ends both alike. -/
theorem Matches.ends_of_missing {count : Nat} (h : Matches program machine console point)
    {instruction : Instruction} {tape : Array UInt8}
    (entry : program.instructions[point.index]? = some (.plain instruction))
    (op : instruction.op = .input)
    (missing : ¬ 0 ≤ Width.reply.signed (Width.reply.residue (Host.getByte point.host).1)) :
    machine.calls 1 console = streamCalls [(.get, point.host)] ∧
      SameEnd program count (machine.run 1 console) point.index
        (conclude program (.returned point.index tape (Host.getByte point.host).2)) := by
  have hcalls : machine.stepCalls console = streamCalls [(.get, point.host)] := by
    simp [Machine.stepCalls, h.next?_eq, entry, op, streamCalls, CallLog.streamCalls]
  rcases point.host.getByte_cases with ⟨byte, after, hread, hget⟩ | ⟨failure, after, hread, hget⟩
  · rw [hget] at missing
    exact absurd (signed_residue_reply_nonneg byte) missing
  have hreply : InputStream.readByte point.world.input = (.error failure, after) := hread
  rw [hget, h.failures_eq]
  cases blamed : failure.kind.isInputError with
  | true =>
    have effect : Primitive.input.Effect (rules program) instruction point.world _ _ :=
      .inputFault hreply blamed
    refine h.ends_of_effect entry effect op hcalls rfl ?_ (by simp)
    simp [explain, entry, Linked.op, Linked.instruction, op, rules, isCallError, blamed]
  | false =>
    have effect : Primitive.input.Effect (rules program) instruction point.world _ _ :=
      .inputFailure hreply blamed
    refine h.ends_of_effect entry effect op hcalls rfl ?_ ?_
    · simp [explain, entry, Linked.op, Linked.instruction, op, isCallError, blamed]
    · -- the end of input is an input error, so it is never passed on
      rintro failure' herror
      rw [isInputError_eq, Bool.or_eq_false_iff] at blamed
      rw [← RunError.failure.inj herror]
      exact blamed.2

/-- Where a point of a native run leads to the end, the machine ends alike. -/
theorem Matches.ends_of_advances {count : Nat} (h : Matches program machine console point)
    (hinside : point.Inside count) {word : Int} {tape : Array UInt8} {log : CallLog ι ο}
    (hadvances : point.Advances program made (.returned word tape log)) :
    machine.calls 1 console = streamCalls made ∧
      SameEnd program count (machine.run 1 console) word
        (conclude program (.returned word tape log)) := by
  cases hadvances with
  | finished ended =>
    have hnext := h.next?_eq.trans ended
    rw [Machine.run_succ_of_next?_eq_none hnext]
    refine ⟨?_, .finished (congrArg (fun world => world.tape.cells) h.world_eq)
      (congrArg _ hinside.size_eq) ?_⟩
    · rw [Machine.calls_succ_of_ended (by rw [Machine.step_of_next?_eq_none hnext]; simp)]
      simp [Machine.stepCalls, hnext, streamCalls]
    · exact (congrArg (fun world => (world.input, world.output)) h.world_eq).symm
  | @tooHigh instruction entry op last =>
    have hlast : point.world.tape.head + 1 = point.world.tape.size := by
      have hhead : point.head < point.tape.size := by
        rw [hinside.size_eq]
        exact hinside.head_lt
      rw [point.size_world]
      show point.head + 1 = point.tape.size
      omega
    have effect : Primitive.right.Effect (rules program) instruction point.world _ _ :=
      .tooHigh hlast rfl
    refine h.ends_of_effect entry effect op ?_ rfl ?_ (by simp)
    · simp [Machine.stepCalls, h.next?_eq, entry, op, streamCalls]
    · simp [explain, entry, Linked.op, Linked.instruction, op, rules]
  | @tooLow instruction entry op first =>
    have effect : Primitive.left.Effect (rules program) instruction point.world _ _ :=
      .tooLow first
    refine h.ends_of_effect entry effect op ?_ rfl ?_ (by simp)
    · simp [Machine.stepCalls, h.next?_eq, entry, op, streamCalls]
    · simp [explain, entry, Linked.op, Linked.instruction, op, rules]
  | outputFault entry op cell refused => exact h.ends_of_refused entry op cell refused
  | inputFault entry op missing => exact h.ends_of_missing entry op missing

end Instructions

/-! ## Whole runs -/

theorem SameEnd.reply_ne {program : LinkedProgram} {size word : Int} {outcome : Outcome ι ο}
    {result : Result ι ο} (h : SameEnd program size outcome word result) :
    outcome.reply ≠ .advanced := by
  cases h <;> simp

/-- Where the machine passed on the end of input, the native run blames the instruction. -/
theorem SameEnd.ending_of_failure {program : LinkedProgram} {size word : Int}
    {outcome : Outcome ι ο} {result : Result ι ο} (h : SameEnd program size outcome word result)
    {failure : Failure} (hreply : outcome.reply = .raised (.failure failure))
    (hkind : failure.kind.isEndOfInput = true) :
    ∃ instruction, program.instructions[outcome.machine.pc]? = some (.plain instruction) ∧
      result.ending = .raised (.fault ⟨program.file, instruction, .io failure⟩) := by
  cases h with
  | finished => cases hreply
  | raised regular =>
    rw [regular failure (Reply.raised.inj hreply)] at hkind
    exact absurd hkind Bool.false_ne_true
  | @blamed instruction _ _ _ _ entry op kind streams =>
    cases hreply
    exact ⟨instruction, entry, rfl⟩

section Runs

variable [InputStream ι] [OutputStream ο] {source : Program} {program : LinkedProgram}
  {count : Nat} {machine : Machine} {console : Console ι ο} {state : State (CallLog ι ο)}

/-- A machine and the code of a native run are at the same point. -/
def Together (program : LinkedProgram) (count : Nat) (machine : Machine) (console : Console ι ο)
    (state : State (CallLog ι ο)) : Prop :=
  ∃ point values, Matches program machine console point ∧ point.Inside count ∧ Framed values ∧
    state = point.state (codeFrom program count) values

/-- What follows when a machine and the code are at the same point: they come to another one with
the same calls, or they end alike. -/
theorem Together.advance_or_end (hlink : source.link = .ok program) (hcount : count < Nat.pow 2 64)
    (h : Together program count machine console state) :
    (∃ steps length machine' console' state',
      machine.run (steps + 1) console = ⟨.advanced, machine', console'⟩ ∧
      state.run (compile program count).function (length + 1) = .running state' ∧
      machine.calls (steps + 1) console =
        streamCalls (state.calls (compile program count).function (length + 1)) ∧
      Together program count machine' console' state') ∨
    ∃ length word tape log,
      state.run (compile program count).function length = .returned word tape log ∧
      machine.calls 1 console =
        streamCalls (state.calls (compile program count).function length) ∧
      SameEnd program count (machine.run 1 console) word
        (conclude program (.returned word tape log)) := by
  obtain ⟨point, values, hmatches, hinside, hframed, rfl⟩ := h
  obtain ⟨made, arrival, hadvances⟩ := hinside.exists_advances hlink
  cases arrival with
  | point next =>
    obtain ⟨steps, machine', console', hrun, hcalls, hmatches'⟩ :=
      hmatches.comes_of_advances hlink hadvances
    obtain ⟨values', hframed', length, hlength, hmade⟩ :=
      exists_leads_of_advances hlink hcount hinside hframed hadvances
    refine .inl ⟨steps, length, machine', console', _, hrun, hlength, ?_, next, values', hmatches',
      hinside.advances hadvances, hframed', rfl⟩
    rw [hmade, hcalls]
  | returned word tape log =>
    obtain ⟨hcalls, hend⟩ := hmatches.ends_of_advances hinside hadvances
    obtain ⟨length, hlength, hmade⟩ := returns_of_advances hlink hcount hinside hframed hadvances
    exact .inr ⟨length, word, tape, log, hlength, by rw [hmade, hcalls], hend⟩

/-- The code follows the machine. -/
theorem Together.follow_machine (hlink : source.link = .ok program) (hcount : count < Nat.pow 2 64)
    (h : Together program count machine console state) (limit : Nat) :
    ∃ limit', machine.calls limit console <+:
        streamCalls (state.calls (compile program count).function limit') ∧
      ((machine.run limit console).reply ≠ .advanced → ∃ word tape log,
        state.run (compile program count).function limit' = .returned word tape log ∧
        SameEnd program count (machine.run limit console) word
          (conclude program (.returned word tape log))) := by
  -- the machine takes at least one step between points, so the limit left gets smaller
  induction limit using Nat.strongRecOn generalizing machine console state with
  | ind limit ih =>
    obtain ⟨steps, length, machine', console', state', hrun, hlength, hcalls, htogether⟩ |
      ⟨length, word, tape, log, hlength, hcalls, hend⟩ := h.advance_or_end hlink hcount
    · by_cases hlimit : limit ≤ steps
      · -- the machine is cut short before the next point
        refine ⟨length + 1, ?_, fun hended => ?_⟩
        · rw [← hcalls]
          exact Machine.calls_prefix (by omega) machine console
        · have hsame := Machine.run_add_of_ended hended (steps + 1 - limit)
          rw [Nat.add_sub_cancel' (by omega), hrun] at hsame
          rw [← hsame] at hended
          exact absurd rfl hended
      · obtain ⟨rest, rfl⟩ : ∃ rest, limit = steps + 1 + rest := ⟨limit - (steps + 1), by omega⟩
        obtain ⟨limit', hprefix, hends⟩ := ih rest (by omega) htogether
        refine ⟨length + 1 + limit', ?_, ?_⟩
        · rw [Machine.calls_add hrun, State.calls_add hlength, streamCalls_append, hcalls]
          exact (List.prefix_append_right_inj _).mpr hprefix
        · rw [Machine.run_add hrun, State.run_add hlength]
          exact hends
    · refine ⟨length, ?_, fun hended => ⟨word, tape, log, hlength, ?_⟩⟩
      · rw [← hcalls]
        exact Machine.calls_prefix_of_ended hend.reply_ne limit
      · rw [Machine.run_eq_run_of_ended hended hend.reply_ne]
        exact hend

/-- The machine follows the code. -/
theorem Together.follow_code (hlink : source.link = .ok program) (hcount : count < Nat.pow 2 64)
    (h : Together program count machine console state) (limit : Nat) :
    ∃ limit', streamCalls (state.calls (compile program count).function limit) <+:
        machine.calls limit' console ∧
      ((∀ next, state.run (compile program count).function limit ≠ .running next) →
        ∃ word tape log,
          state.run (compile program count).function limit = .returned word tape log ∧
          SameEnd program count (machine.run limit' console) word
            (conclude program (.returned word tape log))) := by
  -- the code executes at least one instruction between points, so the limit left gets smaller
  induction limit using Nat.strongRecOn generalizing machine console state with
  | ind limit ih =>
    obtain ⟨steps, length, machine', console', state', hrun, hlength, hcalls, htogether⟩ |
      ⟨length, word, tape, log, hlength, hcalls, hend⟩ := h.advance_or_end hlink hcount
    · by_cases hlimit : limit ≤ length
      · -- the code is cut short before the next point
        refine ⟨steps + 1, ?_, fun hended => ?_⟩
        · rw [hcalls]
          exact streamCalls_prefix (State.calls_prefix (by omega) state)
        · obtain ⟨earlier, hearlier⟩ :=
            State.exists_running_of_le (show limit ≤ length + 1 by omega) hlength
          exact absurd hearlier (hended earlier)
      · obtain ⟨rest, rfl⟩ : ∃ rest, limit = length + 1 + rest := ⟨limit - (length + 1), by omega⟩
        obtain ⟨limit', hprefix, hends⟩ := ih rest (by omega) htogether
        refine ⟨steps + 1 + limit', ?_, ?_⟩
        · rw [Machine.calls_add hrun, State.calls_add hlength, streamCalls_append, hcalls]
          exact (List.prefix_append_right_inj _).mpr hprefix
        · rw [Machine.run_add hrun, State.run_add hlength]
          exact hends
    · have hended' : ∀ next, state.run (compile program count).function length ≠ .running next := by
        rw [hlength]
        simp
      refine ⟨1, ?_, fun hended => ⟨word, tape, log, ?_, hend⟩⟩
      · rw [hcalls]
        exact streamCalls_prefix (State.calls_prefix_of_ended hended' limit)
      · rw [State.run_eq_run_of_ended hended hended', hlength]

/-- A new machine with a fixed tape of `count` bytes. -/
def fixedMachine (program : LinkedProgram) (count : Nat) : Machine :=
  { program, cell := .byte, mayGrow := false, tape := .blank count CellKind.byte.zero }

/-- A new machine and the code, once it has come to the first instruction, are at the same point. -/
theorem exists_together_start (program : LinkedProgram) (hcount : 0 < count)
    (console : Console ι ο) :
    ∃ length state',
      (start program count console).run (compile program count).function (length + 1) =
        .running state' ∧
      (start program count console).calls (compile program count).function (length + 1) = [] ∧
      Together program count (fixedMachine program count) console state' := by
  obtain ⟨values, hframed, hcourse⟩ := exists_course_start program
    (Array.size_replicate : (Array.replicate count (0 : UInt8)).size = count) hcount
    (CallLog.mk (announced program count console) [])
  obtain ⟨length, hrun, hcalls⟩ := hcourse.leads
  refine ⟨length, _, hrun, hcalls, _, values, ?_, ⟨Array.size_replicate, hcount⟩, hframed, rfl⟩
  have hstreams := streams_announced program count console
  rw [Console.streams, Console.streams, Prod.mk.injEq] at hstreams
  refine ⟨rfl, rfl, rfl, ?_, rfl⟩
  ext1
  · simp [Machine.world, Point.world, fixedMachine, Tape.blank, CellKind.byte]
  · exact hstreams.1.symm
  · exact hstreams.2.symm

/-- The code of a native run that has ended does not go on. -/
theorem run_start_ne_running {size : Int} (htape : tapeSize size = .ok count) {limit : Nat}
    (hended : (run limit program size console).ending ≠ .unfinished)
    (next : State (CallLog ι ο)) :
    (start program count console).run (compile program count).function limit ≠ .running next := by
  intro hnext
  rw [run_eq htape, hnext] at hended
  exact hended rfl

/-- A native run ends as its code returns. -/
theorem run_of_returned {size word : Int} {tape : Array UInt8} {log : CallLog ι ο}
    (htape : tapeSize size = .ok count) {limit : Nat}
    (h : (start program count console).run (compile program count).function limit =
      .returned word tape log) :
    word? limit program size console = some word ∧
      run limit program size console = conclude program (.returned word tape log) := by
  refine ⟨?_, by rw [run_eq htape, h]⟩
  simp only [word?, htape, h]

/-- A native run over a tape of `count` cells agrees with a new machine that has as many fixed
bytes. -/
theorem agrees_new (hlink : source.link = .ok program) (hpos : 0 < count)
    (hcount : count < Nat.pow 2 64) (htape : tapeSize count = .ok count) (console : Console ι ο) :
    Agrees program count (fixedMachine program count) console := by
  obtain ⟨length, state', hstart, hnone, htogether⟩ := exists_together_start program hpos console
  refine ⟨?_, ?_, ?_, ?_, fun limit => Machine.streams_run limit _ console,
    fun limit => streams_run htape limit program console⟩
  · intro limit hended
    -- where one of the two has ended, so has the other, at a limit of its own
    obtain ⟨limit', -, hends⟩ := htogether.follow_machine hlink hcount limit
    obtain ⟨word, tape, log, hreturned, hend⟩ := hends hended
    rw [← State.run_add hstart] at hreturned
    obtain ⟨hword, hrun⟩ := run_of_returned htape hreturned
    exact ⟨_, word, hword, by rw [hrun]; exact hend⟩
  · intro limit hended
    have hcode := run_start_ne_running htape hended
    obtain hle | ⟨rest, rfl⟩ : limit ≤ length + 1 ∨ ∃ rest, limit = length + 1 + rest := by
      by_cases hle : limit ≤ length + 1
      · exact .inl hle
      · exact .inr ⟨limit - (length + 1), by omega⟩
    · -- the code has not even come to the first instruction
      obtain ⟨earlier, hearlier⟩ := State.exists_running_of_le hle hstart
      exact absurd hearlier (hcode earlier)
    · rw [State.run_add hstart] at hcode
      obtain ⟨limit', -, hends⟩ := htogether.follow_code hlink hcount rest
      obtain ⟨word, tape, log, hreturned, hend⟩ := hends hcode
      rw [← State.run_add hstart] at hreturned
      obtain ⟨hword, hrun⟩ := run_of_returned htape hreturned
      exact ⟨limit', word, hword, by rw [hrun]; exact hend⟩
  · intro limit
    obtain ⟨limit', hprefix, -⟩ := htogether.follow_machine hlink hcount limit
    refine ⟨length + 1 + limit', ?_⟩
    simp only [calls, htape, State.calls_add hstart, hnone, List.nil_append]
    exact hprefix
  · intro limit
    obtain ⟨limit', hprefix, -⟩ := htogether.follow_code hlink hcount limit
    refine ⟨limit', List.IsPrefix.trans ?_ hprefix⟩
    have hmore := State.calls_add hstart limit
    rw [hnone, List.nil_append] at hmore
    simp only [calls, htape, ← hmore]
    exact streamCalls_prefix (State.calls_prefix (by omega) _)

/-- A native run of a linked program over a tape of `size` cells does what a machine with as many
fixed bytes does. -/
theorem exists_machine_agrees (hlink : source.link = .ok program) {size : Int} (hpos : 1 ≤ size)
    (hsize : size < Nat.pow 2 60) (console : Console ι ο) :
    ∃ machine, Machine.create program .byte false size = .ok machine ∧
      Agrees program size machine console := by
  obtain ⟨count, rfl⟩ : ∃ count : Nat, size = count := ⟨size.toNat, by omega⟩
  have hcount : count < Nat.pow 2 60 := Int.ofNat_lt.mp hsize
  have htape : tapeSize count = .ok count := by
    simp only [tapeSize, requestedSize, checkAllocation, bind, Except.bind, Int.toNat_natCast]
    rw [if_neg (by omega), if_neg (by omega)]
    exact if_pos hcount
  refine ⟨fixedMachine program count, Machine.create_eq_ok_iff.mpr ⟨count, htape, rfl⟩, ?_⟩
  exact agrees_new hlink (by omega) (Nat.lt_trans hcount (by decide)) htape console

/-- A program that writes out what it reads, until it reads a zero. -/
theorem exists_machine_agrees_copying :
    ∃ program, (Program.ofSource "copy.bf" [0x2c, 0x5b, 0x2e, 0x2c, 0x5d]).link = .ok program ∧
      ∃ machine, Machine.create program .byte false 1 = .ok machine ∧
        Agrees program 1 machine
          (⟨{ remaining := [72, 105] }, {}, false, ""⟩ : Console ScriptedInput ScriptedOutput) := by
  have hlink : (Program.ofSource "copy.bf" [0x2c, 0x5b, 0x2e, 0x2c, 0x5d]).link = .ok _ := rfl
  exact ⟨_, hlink, exists_machine_agrees hlink (by decide) (by decide) _⟩

/-- A console whose output fails as if it were an input that has ended. -/
def endedOutput : Console ScriptedInput ScriptedOutput :=
  ⟨{}, { outage := some (⟨0, none⟩, some ⟨.endOfInput, "boom"⟩) }, false, ""⟩

/-- The machine passes on a failed write that the native run blames on the instruction. -/
theorem run_endedOutput_ne :
    ∃ program machine, (Program.ofSource "dot.bf" [0x2e]).link = .ok program ∧
      Machine.create program .byte false 1 = .ok machine ∧
      (machine.run 1 endedOutput).reply = .raised (.failure ⟨.endOfInput, "boom"⟩) ∧
      ∃ limit, (run limit program 1 endedOutput).ending =
        .raised (.fault ⟨"dot.bf", ⟨.output, 1, 1⟩, .io ⟨.endOfInput, "boom"⟩⟩) := by
  have hlink : (Program.ofSource "dot.bf" [0x2e]).link = .ok _ := rfl
  have htape : tapeSize 1 = .ok 1 := rfl
  have hagrees := agrees_new hlink (by decide) (by decide) htape endedOutput
  refine ⟨_, _, hlink, Machine.create_eq_ok_iff.mpr ⟨1, htape, rfl⟩, rfl, ?_⟩
  obtain ⟨limit, word, -, hend⟩ := hagrees.machine_ends 1 (by decide)
  obtain ⟨instruction, hentry, hending⟩ := hend.ending_of_failure rfl rfl
  cases hentry
  exact ⟨limit, hending⟩

end Runs

end Brainfuck.Native
