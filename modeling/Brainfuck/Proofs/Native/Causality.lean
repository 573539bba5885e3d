import Brainfuck.Proofs.Causality
import Brainfuck.Proofs.Ir.Hosts
import Brainfuck.Proofs.Native.Accounting
import Brainfuck.Proofs.Native.Placement

/-! # Native runs depend on the input that they have consumed

The code of a native run sees the input only through the replies to its calls. Unless it asks an
exhausted input, they are the same whatever bytes follow those that it has consumed; and if it does
ask, it has come to an instruction at which it goes on with the next byte, where there is one.

Main definitions: `Native.Awaits`, `Native.Causal`. Main statements: what the code does at another
input (`Native.exists_run_supplied`), where it asks in vain (`Native.Passes.exists_awaits`), and
what holds of both ways to run a program (`Program.causal_of_link`). -/

namespace Brainfuck.Native

open Ir Build

variable {ο : Type} [OutputStream ο]

/-! ## Calls of the code at another input -/

namespace CallLog

/-- The console of a native run with other bytes of input. -/
def supplied (data : List UInt8) (log : CallLog PatternedInput ο) : CallLog PatternedInput ο :=
  { log with console := log.console.supplied data }

/-- Putting a byte passes on the reply of the output. -/
theorem putByte_eq (byte : UInt8) (log : CallLog PatternedInput ο) :
    Host.putByte byte log =
      match OutputStream.writeByte byte.toNat log.console.output with
      | (.ok (), output) => (0, { log with console := { log.console with output } })
      | (.error failure, output) =>
        (1, ⟨{ log.console with output }, failure :: log.failures⟩) := by
  rcases log.putByte_cases byte with ⟨after, hwrite, hput⟩ | ⟨failure, after, hwrite, hput⟩
  · rw [hput, hwrite]
  · rw [hput, hwrite]

/-- Getting a byte passes on the reply of the input. -/
theorem getByte_eq (log : CallLog PatternedInput ο) :
    Host.getByte log =
      match InputStream.readByte log.console.input with
      | (.ok byte, input) =>
        ((byte.toNat : Int), { log with console := log.console.withInput input })
      | (.error failure, input) =>
        (-1, ⟨log.console.withInput input, failure :: log.failures⟩) := by
  rcases log.getByte_cases with ⟨byte, after, hread, hget⟩ | ⟨failure, after, hread, hget⟩
  · rw [hget, hread]
    rfl
  · rw [hget, hread]
    rfl

/-- A call that does not starve is answered alike whatever follows the bytes that it consumes. -/
theorem exists_answeredAlike {call : HostCall} {log : CallLog PatternedInput ο}
    (h : ¬ Starves (log.streamCalls call) log.console.streams) :
    ∃ used, PatternedInput.Gives used log.console.input (call.after log).console.input ∧
      ∀ rest, call.AnsweredAlike (supplied (used ++ rest)) (supplied rest) log := by
  cases call with
  | put byte =>
    -- the input has nothing to do with it
    refine ⟨[], ?_, fun rest => ?_⟩
    · rw [HostCall.after, putByte_eq]
      split <;> exact PatternedInput.gives_nil _
    · have houtput : (log.supplied ([] ++ rest)).console.output = log.console.output := rfl
      show Host.putByte byte (log.supplied ([] ++ rest)) = _
      rw [putByte_eq, putByte_eq, houtput]
      cases OutputStream.writeByte (byte.toNat : Int) log.console.output with
      | mk result output => cases result <;> rfl
  | get =>
    have hgiving : ¬ log.console.input.Exhausted := fun hexhausted =>
      h (starves_read_iff.mpr hexhausted)
    obtain ⟨used, hgives, hsame⟩ := PatternedInput.exists_readByte_supplied hgiving
    have hread (rest : List UInt8) :
        InputStream.readByte (log.supplied (used ++ rest)).console.input = _ := hsame rest
    refine ⟨used, ?_, fun rest => ?_⟩
    · rw [HostCall.after, getByte_eq]
      split
      next byte input heq => simpa [heq] using hgives
      next failure input heq => simpa [heq] using hgives
    · show Host.getByte (log.supplied (used ++ rest)) = _
      rw [getByte_eq, getByte_eq, hread rest]
      cases InputStream.readByte log.console.input with
      | mk result input => cases result <;> rfl

end CallLog

/-! ## The code at another input -/

section Code

variable {function : Function} {state : State (CallLog PatternedInput ο)}

theorem nextCalls_mapHost (data : List UInt8) (state : State (CallLog PatternedInput ο)) :
    nextCalls (state.mapHost (CallLog.supplied data)) = nextCalls state := by
  rw [nextCalls, nextCalls, State.call?_mapHost]
  cases state.call? with
  | none => rfl
  | some call => cases call <;> rfl

/-- An instruction of the code that does not starve does the same whatever follows the bytes that it
consumes. -/
theorem exists_step_supplied (function : Function)
    (h : ¬ Starves (nextCalls state) state.host.console.streams) :
    ∃ used, PatternedInput.Gives used state.host.console.input
        (state.step function).host.console.input ∧
      ∀ rest, (state.mapHost (CallLog.supplied (used ++ rest))).step function =
        (state.step function).mapHost (CallLog.supplied rest) := by
  rw [State.host_step]
  cases hcall : state.call? with
  | none =>
    exact ⟨[], PatternedInput.gives_nil _, fun rest => State.step_mapHost_of_silent _ _ hcall⟩
  | some call =>
    rw [nextCalls_of_call hcall] at h
    obtain ⟨used, hgives, hanswer⟩ := CallLog.exists_answeredAlike h
    exact ⟨used, hgives, fun rest => State.step_mapHost_of_call _ hcall (hanswer rest)⟩

/-- A run of the code that does not starve does the same whatever follows the bytes that it
consumes. -/
theorem exists_run_supplied (function : Function) {limit : Nat}
    (h : ¬ Starves (streamCalls (state.calls function limit)) state.host.console.streams) :
    ∃ used, PatternedInput.Gives used state.host.console.input
        (state.run function limit).host.console.input ∧
      ∀ rest, (state.mapHost (CallLog.supplied (used ++ rest))).run function limit =
          (state.run function limit).mapHost (CallLog.supplied rest) ∧
        streamCalls ((state.mapHost (CallLog.supplied (used ++ rest))).calls function limit) =
          streamCalls (state.calls function limit) := by
  induction limit generalizing state with
  | zero => exact ⟨[], PatternedInput.gives_nil _, fun rest => ⟨rfl, rfl⟩⟩
  | succ limit ih =>
    have hstreams := streams_step function state
    rw [State.calls, streamCalls_append, starves_append, not_or] at h
    obtain ⟨used, hgives, hsame⟩ := exists_step_supplied function h.1
    have hcalls (data : List UInt8) := nextCalls_mapHost data state
    unfold nextCalls at hcalls hstreams
    simp only [State.run, State.calls, streamCalls_append, hcalls]
    cases hstep : state.step function with
    | running next =>
      rw [hstep] at h hstreams hgives
      rw [← hstreams] at h
      obtain ⟨used', hgives', hsame'⟩ := ih h.2
      -- what the first step uses comes in front of what the rest of the run uses
      refine ⟨used ++ used', hgives.trans hgives', fun rest => ?_⟩
      rw [List.append_assoc, hsame (used' ++ rest), hstep]
      exact ⟨(hsame' rest).1, congrArg _ (hsame' rest).2⟩
    | returned word tape log =>
      rw [hstep] at hgives
      refine ⟨used, hgives, fun rest => ?_⟩
      rw [hsame rest, hstep]
      exact ⟨rfl, rfl⟩
    | stuck reason log =>
      rw [hstep] at hgives
      refine ⟨used, hgives, fun rest => ?_⟩
      rw [hsame rest, hstep]
      exact ⟨rfl, rfl⟩

end Code

/-! ## Native runs at another input -/

/-- The result with other bytes of input left. -/
def Result.supplied (result : Result PatternedInput ο) (data : List UInt8) :
    Result PatternedInput ο :=
  { result with console := result.console.supplied data }

section Runs

variable {program : LinkedProgram} {console : Console PatternedInput ο}

omit [OutputStream ο] in
/-- A note is made alike, whatever bytes are left. -/
theorem supplied_note (console : Console PatternedInput ο) (text : String) (data : List UInt8) :
    (console.note text).supplied data = (console.supplied data).note text := by
  have htracing : (console.supplied data).tracing = console.tracing := rfl
  unfold Console.note
  rw [htracing]
  split <;> rfl

omit [OutputStream ο] in
theorem start_supplied (program : LinkedProgram) (count : Nat) (console : Console PatternedInput ο)
    (data : List UInt8) :
    start program count (console.supplied data) =
      (start program count console).mapHost (CallLog.supplied data) := by
  simp only [start, announced, Function.start, State.mapHost, CallLog.supplied,
    supplied_note]

omit [OutputStream ο] in
theorem conclude_mapHost (program : LinkedProgram) (step : Step (CallLog PatternedInput ο))
    (data : List UInt8) :
    conclude program (step.mapHost (CallLog.supplied data)) =
      (conclude program step).supplied data := by
  cases step with
  | running state => rfl
  | stuck reason log => rfl
  | returned word tape log =>
    simp only [Step.mapHost, conclude]
    split <;> rfl

/-- A tape that cannot be made is refused whatever the input. -/
theorem run_supplied_of_refused {size : Int} {error : TapeSizeError}
    (h : tapeSize size = .error error) (limit : Nat) (program : LinkedProgram)
    (console : Console PatternedInput ο) (data : List UInt8) :
    run limit program size (console.supplied data) =
      (run limit program size console).supplied data := by
  simp only [run]
  cases hrequested : requestedSize size with
  | error reason => rfl
  | ok requested =>
    have hallocated : checkAllocation requested = .error error := by
      simpa [tapeSize, hrequested, bind, Except.bind] using h
    simp only [hallocated, Result.supplied, supplied_note]

/-- The code of a native run that does not starve does the same whatever follows the bytes that it
consumes. -/
theorem exists_codeRun_supplied {limit count : Nat}
    (h : ¬ Starves (streamCalls (codeCalls program count console limit)) console.streams) :
    ∃ used, PatternedInput.Gives used console.input
        (codeRun program count console limit).host.console.input ∧
      ∀ rest, codeRun program count (console.supplied (used ++ rest)) limit =
          (codeRun program count console limit).mapHost (CallLog.supplied rest) ∧
        streamCalls (codeCalls program count (console.supplied (used ++ rest)) limit) =
          streamCalls (codeCalls program count console limit) := by
  have hstart : (start program count console).host.console.streams = console.streams :=
    streams_announced program count console
  have hinput : (start program count console).host.console.input = console.input :=
    congrArg Prod.fst hstart
  rw [← hstart] at h
  obtain ⟨used, hgives, hsame⟩ := exists_run_supplied (compile program count).function h
  rw [hinput] at hgives
  refine ⟨used, hgives, fun rest => ?_⟩
  rw [codeRun, codeCalls, start_supplied]
  exact hsame rest

/-- A native run that does not starve does the same whatever follows the bytes that it consumes. -/
theorem exists_supplied {limit : Nat} {size : Int}
    (h : ¬ Starves (calls limit program size console) console.streams) :
    ∃ used, PatternedInput.Gives used console.input
        (run limit program size console).console.input ∧
      ∀ rest, run limit program size (console.supplied (used ++ rest)) =
          (run limit program size console).supplied rest ∧
        calls limit program size (console.supplied (used ++ rest)) =
          calls limit program size console := by
  cases hcount : tapeSize size with
  | error error =>
    have hstreams := (run_of_refused hcount limit program console).2
    have hinput : (run limit program size console).console.input = console.input :=
      congrArg Prod.fst hstreams
    refine ⟨[], hinput ▸ PatternedInput.gives_nil _, fun rest => ?_⟩
    rw [calls, calls, hcount]
    exact ⟨run_supplied_of_refused hcount limit program console rest, rfl⟩
  | ok count =>
    rw [calls_eq hcount] at h
    obtain ⟨used, hgives, hsame⟩ := exists_codeRun_supplied h
    refine ⟨used, ?_, fun rest => ?_⟩
    · rw [run_eq hcount, console_conclude]
      exact hgives
    · obtain ⟨hrun, hcalls⟩ := hsame rest
      unfold codeRun at hrun
      rw [run_eq hcount, run_eq hcount, calls_eq hcount, calls_eq hcount, hrun, conclude_mapHost]
      exact ⟨rfl, hcalls⟩

end Runs

/-! ## Where the code asks in vain -/

/-- A point of a native run is at an instruction that reads, with an exhausted input. -/
structure Awaits (program : LinkedProgram) (instruction : Instruction)
    (point : Point (CallLog PatternedInput ο)) : Prop where
  /-- The instruction is the one at the point. -/
  entry : program.instructions[point.index]? = some (.plain instruction)
  /-- It reads. -/
  op : instruction.op = .input
  /-- The input is exhausted. -/
  exhausted : point.host.console.input.Exhausted

/-- The point with other bytes of input. -/
def Point.supplied (data : List UInt8) (point : Point (CallLog PatternedInput ο)) :
    Point (CallLog PatternedInput ο) :=
  { point with host := point.host.supplied data }

/-- The point after an instruction that has read a byte and left others. -/
def Point.stored (byte : UInt8) (rest : List UInt8) (point : Point (CallLog PatternedInput ο)) :
    Point (CallLog PatternedInput ο) where
  index := point.index + 1
  head := point.head
  tape := point.tape.setIfInBounds point.head byte
  host := { point.host with
    console := point.host.console.withInput { point.host.console.input with
      remaining := rest
      reads := point.host.console.input.reads + 1
      consumed := point.host.console.input.consumed + 1 } }

section Points

variable {program : LinkedProgram} {point next : Point (CallLog PatternedInput ο)}
  {made : List (HostCall × CallLog PatternedInput ο)} {instruction : Instruction}

/-- An exhausted input is replied to the code as a failure, which is kept. -/
theorem Awaits.getByte_eq (h : Awaits program instruction point) :
    Host.getByte point.host =
      (-1, ⟨point.host.console.withInput
        { point.host.console.input with reads := point.host.console.input.reads + 1 },
          .exhausted :: point.host.failures⟩) := by
  rw [CallLog.getByte_eq, PatternedInput.readByte_of_exhausted h.exhausted]

/-- Putting a byte asks the input for nothing. -/
theorem not_starves_put (byte : UInt8) (log : CallLog PatternedInput ο)
    (streams : PatternedInput × ο) : ¬ Starves (streamCalls [(.put byte, log)]) streams := by
  have hcalls : streamCalls [(HostCall.put byte, log)] =
      writeCalls byte.toNat log.console.output := by
    simp only [streamCalls, List.flatMap_cons, List.flatMap_nil, List.append_nil,
      CallLog.streamCalls]
  rw [hcalls]
  exact not_starves_writeCalls byte.toNat log.console.output streams

/-- The code goes on from a point only if it does not starve there. -/
theorem Point.Advances.not_starves (h : point.Advances program made (.point next)) :
    ¬ Starves (streamCalls made) point.host.console.streams := by
  cases h with
  | output entry op cell accepted => exact not_starves_put _ _ _
  | @input instruction entry op inside given =>
    intro hstarves
    have hawaits : Awaits program instruction point := ⟨entry, op, starves_read_iff.mp hstarves⟩
    rw [hawaits.getByte_eq] at given
    exact absurd given (show ¬ 0 ≤ Width.reply.signed (Width.reply.residue (-1)) by decide)
  | _ => exact not_starves_nil _

/-- If it starves, the instruction reads from an exhausted input, and the code returns its index. -/
theorem Point.Advances.exists_awaits {word : Int} {tape : Array UInt8}
    {log : CallLog PatternedInput ο} (h : point.Advances program made (.returned word tape log))
    (hstarves : Starves (streamCalls made) point.host.console.streams) :
    ∃ instruction, Awaits program instruction point ∧
      Step.returned word tape log =
        .returned point.index point.tape (Host.getByte point.host).2 := by
  cases h with
  | @outputFault instruction byte entry op cell refused =>
    exact absurd hstarves (not_starves_put byte point.host _)
  | inputFault entry op missing =>
    exact ⟨_, ⟨entry, op, starves_read_iff.mp hstarves⟩, rfl⟩
  | _ => exact absurd hstarves (not_starves_nil _)

end Points

section Passage

variable {program : LinkedProgram} {count length limit : Nat}
  {console : Console PatternedInput ο} {turns : List (Turn PatternedInput ο)}
  {point : Point (CallLog PatternedInput ο)} {arrival : Arrival (CallLog PatternedInput ο)}

/-- On the way to a point the code does not starve. -/
theorem Passes.not_starves (h : Passes program count console length turns arrival) :
    ∀ point, arrival = .point point →
      ¬ Starves (streamCalls (codeCalls program count console length)) console.streams := by
  induction h with
  | first comes calls =>
    rintro _ -
    rw [calls]
    exact not_starves_nil _
  | turn passes advances comes calls ih =>
    rintro next rfl
    rw [calls, streamCalls_append, starves_append, ← passes.streams_eq, not_or]
    exact ⟨ih _ rfl, advances.not_starves⟩

/-- Code that starves does so at a point at which it awaits a byte, and returns from there. -/
theorem Passes.exists_awaits (h : Passes program count console length turns arrival)
    (hstarves : Starves (streamCalls (codeCalls program count console length)) console.streams) :
    ∃ before turns point instruction, Passes program count console before turns (.point point) ∧
      Awaits program instruction point ∧
      codeRun program count console length =
        .returned point.index point.tape (Host.getByte point.host).2 := by
  cases h with
  | first comes calls => exact absurd hstarves (Passes.not_starves (.first comes calls) _ rfl)
  | turn passes advances comes calls =>
    cases arrival with
    | point next =>
      exact absurd hstarves (Passes.not_starves (.turn passes advances comes calls) _ rfl)
    | returned word tape log =>
      rw [calls, streamCalls_append, starves_append, ← passes.streams_eq] at hstarves
      obtain ⟨instruction, hawaits, hreturned⟩ :=
        advances.exists_awaits (hstarves.resolve_left (passes.not_starves _ rfl))
      exact ⟨_, _, _, instruction, passes, hawaits, Eq.trans comes hreturned⟩

/-- At every moment at which the code has starved, it has come to a point at which it awaits a byte,
and returns from there. -/
theorem Underway.exists_awaits (h : Underway program count console limit turns)
    (hstarves : Starves (streamCalls (codeCalls program count console limit)) console.streams) :
    ∃ before turns point instruction length,
      Passes program count console before turns (.point point) ∧
      Awaits program instruction point ∧
      codeRun program count console length =
        .returned point.index point.tape (Host.getByte point.host).2 := by
  cases h with
  | @starting length point passes lt =>
    obtain ⟨rest, hrest⟩ := streamCalls_prefix
      (codeCalls_extends (Nat.le_of_lt lt) program count console)
    refine absurd ?_ (passes.not_starves _ rfl)
    rw [← hrest, starves_append]
    exact .inl hstarves
  | between passes next le lt calls =>
    rw [calls] at hstarves
    exact absurd hstarves (passes.not_starves _ rfl)
  | @asked length length' turns turn point arrival passes next le lt calls =>
    rw [calls] at hstarves
    obtain ⟨before, turns, point, instruction, hawaits⟩ := next.exists_awaits hstarves
    exact ⟨before, turns, point, instruction, length', hawaits⟩
  | @ended length turns word tape log passes le =>
    rw [codeCalls_of_returned passes.comesTo le] at hstarves
    obtain ⟨before, turns, point, instruction, hawaits⟩ := passes.exists_awaits hstarves
    exact ⟨before, turns, point, instruction, length, hawaits⟩

end Passage

/-! ## What a native run depends on -/

/-- After `length` instructions of its code, a native run is at a point. -/
def ComesAt (program : LinkedProgram) (count : Nat) (console : Console PatternedInput ο)
    (length : Nat) (point : Point (CallLog PatternedInput ο)) : Prop :=
  (Arrival.point point).ComesTo (codeFrom program count) (codeRun program count console length)

/-- What a native run of at most `limit` instructions of its code depends on. -/
structure Causal (limit : Nat) (program : LinkedProgram) (size : Int)
    (console : Console PatternedInput ο) : Prop where
  /-- Unless it starves, all that it does is the same with any bytes that begin with those it
  consumes: its ending, with the tape it returns or the error it raises, the console, down to the
  counts of both streams, and its calls. -/
  same : ¬ Starves (calls limit program size console) console.streams →
    ∀ data, data.take (console.consumedBy (run limit program size console).console) =
        console.input.remaining.take
          (console.consumedBy (run limit program size console).console) →
      run limit program size (console.supplied data) = (run limit program size console).supplied
          (data.drop (console.consumedBy (run limit program size console).console)) ∧
        calls limit program size (console.supplied data) = calls limit program size console
  /-- If it starves, it ends at an instruction that awaits a byte. With more bytes it comes to the
  same point, with the same cells and output, and next it reads and stores the next byte. -/
  resumed : Starves (calls limit program size console) console.streams →
    ∃ count length point instruction, tapeSize size = .ok count ∧
      ComesAt program count console length point ∧ Awaits program instruction point ∧
      ((run limit program size console).ending ≠ .unfinished →
        run limit program size console =
          ⟨.raised (.fault ⟨program.file, instruction, .io .exhausted⟩),
            point.host.console.withInput { point.host.console.input with
              reads := point.host.console.input.reads + 1 }⟩) ∧
      ∀ byte rest,
        ComesAt program count (console.extended (byte :: rest)) length
          (point.supplied (byte :: rest)) ∧
        ∃ later,
          ComesAt program count (console.extended (byte :: rest)) later (point.stored byte rest) ∧
          calls later program size (console.extended (byte :: rest)) =
            calls length program size (console.extended (byte :: rest)) ++ [.read]

section Linked

variable {source : Program} {program : LinkedProgram} {console : Console PatternedInput ο}
  {count length : Nat} {turns : List (Turn PatternedInput ο)}
  {point : Point (CallLog PatternedInput ο)} {instruction : Instruction}

/-- The index of an instruction that awaits a byte is explained by the end of input. -/
theorem Awaits.conclude_eq (h : Awaits program instruction point) :
    conclude program (.returned point.index point.tape (Host.getByte point.host).2) =
      ⟨.raised (.fault ⟨program.file, instruction, .io .exhausted⟩),
        point.host.console.withInput { point.host.console.input with
          reads := point.host.console.input.reads + 1 }⟩ := by
  rw [h.getByte_eq, conclude_index]
  simp [explain, h.entry, Linked.op, Linked.instruction, h.op, isCallError, Failure.exhausted,
    FailureKind.isInputError, FailureKind.isEndOfInput]

/-- With more bytes a native run comes to the same point. -/
theorem Passes.comesAt_supplied (h : Passes program count console length turns (.point point))
    (hended : point.host.console.input.remaining = []) (data : List UInt8) :
    ComesAt program count (console.extended data) length (point.supplied data) := by
  obtain ⟨used, hgives, hsame⟩ := exists_codeRun_supplied (h.not_starves point rfl)
  obtain ⟨values, hframed, hrun⟩ := h.comesTo
  rw [hrun] at hgives
  -- all bytes have been consumed when the input is exhausted
  have hused : console.input.remaining = used := by
    have hleft : (point.state (codeFrom program count) values).host.console.input.remaining = [] :=
      hended
    rw [hgives.remaining]
    exact (congrArg _ hleft).trans (List.append_nil _)
  refine ⟨values, hframed, ?_⟩
  rw [Console.extended, hused, (hsame data).1, hrun]
  rfl

/-- With more bytes an instruction that awaited one reads and stores the next one. -/
theorem Awaits.advances_supplied (h : Awaits program instruction point)
    (hinside : point.Inside count) (byte : UInt8) (rest : List UInt8) :
    (point.supplied (byte :: rest)).Advances program
      [(.get, (point.supplied (byte :: rest)).host)] (.point (point.stored byte rest)) := by
  have hread : InputStream.readByte (point.supplied (byte :: rest)).host.console.input = _ :=
    PatternedInput.readByte_supplied_of_exhausted h.exhausted byte rest
  have hget : Host.getByte (point.supplied (byte :: rest)).host =
      ((byte.toNat : Int), (point.stored byte rest).host) := by
    rw [CallLog.getByte_eq, hread]
    rfl
  have hentry : program.instructions[(point.supplied (byte :: rest)).index]? =
    some (.plain instruction) := h.entry
  have hhead :
      (point.supplied (byte :: rest)).head < (point.supplied (byte :: rest)).tape.size := by
    show point.head < point.tape.size
    rw [hinside.size_eq]
    exact hinside.head_lt
  have hgiven : 0 ≤ Width.reply.signed
      (Width.reply.residue (Host.getByte (point.supplied (byte :: rest)).host).1) := by
    rw [hget]
    exact signed_residue_reply_nonneg byte
  have hadvances := Point.Advances.input hentry h.op hhead hgiven
  rw [hget, ofNat_residue_reply] at hadvances
  exact hadvances

/-- From a point that awaits a byte a native run goes on with the next one, if there is one. -/
theorem Awaits.exists_comesAt (hlink : source.link = .ok program) (hsize : count < Nat.pow 2 64)
    (h : Awaits program instruction point) (hinside : point.Inside count) {byte : UInt8}
    {rest : List UInt8}
    (hcomes : ComesAt program count console length (point.supplied (byte :: rest))) :
    ∃ later, ComesAt program count console later (point.stored byte rest) ∧
      streamCalls (codeCalls program count console later) =
        streamCalls (codeCalls program count console length) ++ [.read] := by
  obtain ⟨values, hframed, hrun⟩ := hcomes
  have hinside' : (point.supplied (byte :: rest)).Inside count := ⟨hinside.size_eq, hinside.head_lt⟩
  obtain ⟨values', hframed', more, hnext, hcalls⟩ := exists_leads_of_advances hlink hsize hinside'
    hframed (h.advances_supplied hinside byte rest)
  refine ⟨length + (more + 1), ⟨values', hframed', ?_⟩, ?_⟩
  · rw [codeRun, State.run_add hrun, hnext]
  · rw [codeCalls, State.calls_add hrun, hcalls, streamCalls_append]
    rfl

/-- A native run depends on the input that it has consumed. -/
theorem causal (hlink : source.link = .ok program) (limit : Nat) (size : Int)
    (console : Console PatternedInput ο) : Causal limit program size console where
  same := by
    intro hfed data hdata
    obtain ⟨used, hgives, hsame⟩ := exists_supplied hfed
    have hused : data.take _ = used := hdata.trans hgives.eq_take
    have hrest := hsame (data.drop (console.consumedBy (run limit program size console).console))
    rwa [← hused, List.take_append_drop] at hrest
  resumed := by
    intro hstarves
    cases hcount : tapeSize size with
    | error error =>
      rw [calls, hcount] at hstarves
      exact absurd hstarves (not_starves_nil _)
    | ok count =>
      obtain ⟨hpositive, hbound⟩ := tapeSize_eq_ok hcount
      have hsize : count < Nat.pow 2 64 := Nat.lt_trans hbound (by decide)
      obtain ⟨turns, hunderway⟩ :=
        Underway.exists_of_link hlink hpositive hsize console limit
      rw [calls_eq hcount] at hstarves
      obtain ⟨before, turns, point, instruction, length, hpasses, hawaits, hreturned⟩ :=
        hunderway.exists_awaits hstarves
      -- it has asked in vain at one instruction: there it ends, and with one more byte it goes on
      refine ⟨count, before, point, instruction, rfl, hpasses.comesTo, hawaits, ?_, ?_⟩
      · intro hended
        rw [run_eq hcount, ← hawaits.conclude_eq, ← hreturned]
        refine congrArg (conclude program) (State.run_eq_run_of_ended ?_ ?_)
        · intro next hnext
          rw [run_eq hcount, hnext] at hended
          exact hended rfl
        · intro next hnext
          cases hreturned.symm.trans hnext
      · intro byte rest
        have hcomes := hpasses.comesAt_supplied hawaits.exhausted.ended (byte :: rest)
        obtain ⟨later, hlater, hcalls⟩ :=
          hawaits.exists_comesAt hlink hsize (hpasses.inside hpositive point rfl) hcomes
        refine ⟨hcomes, later, hlater, ?_⟩
        rw [calls_eq hcount, calls_eq hcount]
        exact hcalls

end Linked

end Brainfuck.Native

namespace Brainfuck.Program

variable {ο : Type} [OutputStream ο] {source : Program} {program : LinkedProgram}

/-- Whatever the output replies and at whichever calls the input goes wrong, every run of a machine
and every native run of a linked program depends on the input that it has consumed, wherever it is
cut off. -/
theorem causal_of_link (hlink : source.link = .ok program) (console : Console PatternedInput ο) :
    (∀ limit (machine : Machine), machine.Causal limit console) ∧
      ∀ limit size, Native.Causal limit program size console := by
  constructor
  · intro limit machine
    exact machine.causal limit console
  · intro limit size
    exact Native.causal hlink limit size console

/-- A console whose third read is interrupted. -/
def typed (data : List UInt8) : Console PatternedInput ScriptedOutput :=
  ⟨{ remaining := data
     hitch := fun call =>
       if call = 2 then some (.failed ⟨.system .interrupted, "stopped"⟩) else none },
    {}, false, ""⟩

/-- A program that reads one byte does the same whatever follows it, and starves, as a machine and
natively, if there is none. -/
theorem causal_echo :
    (ofSource "echo.bf" [0x2c, 0x2e]).link = .ok echo ∧
      ¬ Starves ((Native.fixedMachine echo 1).calls 9 (typed [72, 105])) (typed [72, 105]).streams ∧
      (Native.fixedMachine echo 1).run 9 (typed [72]) =
        ((Native.fixedMachine echo 1).run 9 (typed [72, 105])).supplied [] ∧
      Starves ((Native.fixedMachine echo 1).calls 9 (typed [])) (typed []).streams ∧
      ∃ limit, Starves (Native.calls limit echo 1 (typed [])) (typed []).streams ∧
        Native.Causal limit echo 1 (typed []) := by
  have hlink : (ofSource "echo.bf" [0x2c, 0x2e]).link = .ok echo := rfl
  have hcalls : (Native.fixedMachine echo 1).calls 9 (typed [72, 105]) =
      [.read, .write 72, .flush] := rfl
  have hfed : ¬ Starves ((Native.fixedMachine echo 1).calls 9 (typed [72, 105]))
      (typed [72, 105]).streams := by
    rw [hcalls]
    simp only [starves_cons_iff, reduceCtorEq, false_and, not_starves_nil, or_false, true_and]
    intro hexhausted
    cases hexhausted.ended
  have hawaits : Starves [.read] (typed []).streams := starves_read_iff.mpr ⟨rfl, rfl⟩
  have htape : tapeSize 1 = .ok 1 := rfl
  obtain ⟨limit, hprefix⟩ :=
    (Native.agrees_new hlink (by decide) (by decide) htape (typed [])).machine_calls 9
  refine ⟨hlink, hfed, ?_, hawaits, limit, ?_, (causal_of_link hlink (typed [])).2 limit 1⟩
  · exact (((causal_of_link hlink (typed [72, 105])).1 9 (Native.fixedMachine echo 1)).same hfed
      [72] rfl).1
  · obtain ⟨rest, hrest⟩ := hprefix
    rw [show Native.calls limit echo 1 (typed []) = _ from hrest.symm, starves_append]
    exact .inl hawaits

end Brainfuck.Program
