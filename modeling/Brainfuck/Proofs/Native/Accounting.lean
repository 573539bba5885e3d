import Brainfuck.Proofs.Accounting
import Brainfuck.Proofs.Native.Agreement

/-! # Every byte of a native run is accounted for

A native run takes a turn for each instruction whose code it has been through. The calls on the
streams that its code has made by any moment are accounted for by these turns, the last of which may
still be under way.

Main definitions: `Point.turn`, `Passes`, `Underway`, `Takes`. Main statements: the way from one
point to the next is a sound turn (`Point.Advances.sound_turn`), and what holds of both ways to run
a program (`Program.accounts_of_link`). -/

namespace Brainfuck.Native

open Ir Build

variable {ι ο : Type}

/-! ## Turns of native runs -/

/-- The world that a native run leaves where it arrives; if it returns, the data pointer is where it
was. -/
def Arrival.world (head : Nat) : Arrival (CallLog ι ο) → World ι ο
  | point next => next.world
  | returned _ tape log =>
    ⟨⟨tape.map fun byte => (byte.toNat : Int), head⟩, log.console.input, log.console.output⟩

/-- The host where a native run arrives. -/
def Arrival.host {σ : Type} : Arrival σ → σ
  | point next => next.host
  | returned _ _ log => log

theorem Arrival.streams_world (arrival : Arrival (CallLog ι ο)) (head : Nat) :
    (arrival.world head).streams = arrival.host.console.streams := by
  cases arrival <;> rfl

/-- Whether the function goes on. -/
def Arrival.goesOn {σ : Type} : Arrival σ → Bool
  | point _ => true
  | returned _ _ _ => false

/-- The turn that leads from a point of a native run to where it arrives. -/
def Point.turn (program : LinkedProgram) (point : Point (CallLog ι ο))
    (arrival : Arrival (CallLog ι ο)) : Turn ι ο where
  op := program.instructions[point.index]?.map Linked.op
  before := point.world
  after := arrival.world point.head
  completed := arrival.goesOn

/-- The low eight bits of the current cell are all of it. -/
theorem Point.current_world_emod {point : Point (CallLog ι ο)} {byte : UInt8}
    (cell : point.tape[point.head]? = some byte) :
    point.world.tape.current % 256 = byte.toNat := by
  rw [current_world cell]
  exact toByte_byte byte

variable [InputStream ι] [OutputStream ο] {source : Program} {program : LinkedProgram}
  {point : Point (CallLog ι ο)} {made : List (HostCall × CallLog ι ο)}
  {arrival : Arrival (CallLog ι ο)}

/-- An entry that is not plain is that of a bracket. -/
theorem op_of_bracket (hpaired : Paired source program) {index : Nat} {entry : Linked}
    (hentry : program.instructions[index]? = some entry)
    (h : ∀ instruction, entry ≠ .plain instruction) :
    entry.op = .loopStart ∨ entry.op = .loopEnd := by
  by_cases hs : entry.op = .loopStart
  · exact .inl hs
  · by_cases he : entry.op = .loopEnd
    · exact .inr he
    · obtain ⟨instruction, hplain⟩ :=
        (hpaired.plain entry (Array.mem_of_getElem? hentry)).mpr ⟨hs, he⟩
      exact absurd hplain (h instruction)

namespace Point.Advances

/-- An instruction makes one call at most. -/
theorem made_cases (h : point.Advances program made arrival) :
    made = [] ∨ ∃ entry, made = [entry] := by
  cases h with
  | output | outputFault | input | inputFault => exact .inr ⟨_, rfl⟩
  | _ => exact .inl rfl

/-- The calls of a turn are those that the code makes on the streams. -/
theorem calls_turn (hpaired : Paired source program) (h : point.Advances program made arrival) :
    (point.turn program arrival).calls = streamCalls made := by
  have houtput {instruction : Instruction} {byte : UInt8} (arrival : Arrival (CallLog ι ο))
      (entry : program.instructions[point.index]? = some (.plain instruction))
      (op : instruction.op = .output) (cell : point.tape[point.head]? = some byte) :
      (point.turn program arrival).calls = streamCalls [(.put byte, point.host)] := by
    simp [Turn.calls, Point.turn, entry, Linked.op, Linked.instruction, op,
      Point.current_world_emod cell, streamCalls, CallLog.streamCalls]
    rfl
  cases h with
  | finished ended => simp [Turn.calls, Point.turn, ended, streamCalls]
  | output entry op cell accepted => exact houtput _ entry op cell
  | outputFault entry op cell refused => exact houtput _ entry op cell
  | input entry op | inputFault entry op =>
    simp [Turn.calls, Point.turn, entry, Linked.op, Linked.instruction, op, streamCalls,
      CallLog.streamCalls]
  | skipped entry | entered entry | ended entry | again entry =>
    rcases op_of_bracket hpaired entry (by simp) with hop | hop
    · simp [Turn.calls, Point.turn, entry, hop, streamCalls]
    · simp [Turn.calls, Point.turn, entry, hop, streamCalls]
  | right entry op | tooHigh entry op | left entry op | tooLow entry op | add entry op
  | sub entry op =>
    simp [Turn.calls, Point.turn, entry, Linked.op, Linked.instruction, op, streamCalls]

/-- The calls of the code are all that a turn does to the streams. -/
theorem streams_turn (h : point.Advances program made arrival) :
    (arrival.world point.head).streams = replay (streamCalls made) point.world.streams := by
  have hcall (call : HostCall) : (call.after point.host).console.streams =
      replay (streamCalls [(call, point.host)]) point.world.streams := by
    rw [streamCalls, List.flatMap_singleton]
    exact CallLog.streams_after call point.host
  rw [Arrival.streams_world]
  cases h with
  | @output instruction byte entry op cell accepted =>
    simpa only [HostCall.after, Arrival.host] using hcall (.put byte)
  | @outputFault instruction byte entry op cell refused => exact hcall (.put byte)
  | input entry op inside given => exact hcall .get
  | inputFault entry op missing => exact hcall .get
  | _ => rfl

/-- If the code returns that there was no fault, the program has ended. -/
theorem not_asks_of_noFault {word : Int} {tape : Array UInt8} {log : CallLog ι ο}
    (h : point.Advances program made (.returned word tape log)) (hword : word = noFault) :
    ¬ ((point.turn program (.returned word tape log)).isOutput ∨
      (point.turn program (.returned word tape log)).isInput) := by
  have hindex : (point.index : Int) ≠ noFault := by
    show (point.index : Int) ≠ -1
    omega
  cases h with
  | finished ended => simp [Turn.isOutput, Turn.isInput, Point.turn, ended]
  | _ => exact absurd hword hindex

/-- An output instruction goes on exactly if its byte is written. -/
theorem goesOn_of_isOutput (hpaired : Paired source program)
    (h : point.Advances program made arrival) (hasks : (point.turn program arrival).isOutput) :
    arrival.goesOn ↔ (OutputStream.writeByte (point.world.tape.current % 256)
      point.world.output).1 = .ok () := by
  have hop : program.instructions[point.index]?.map Linked.op = some .output :=
    of_decide_eq_true hasks
  cases h with
  | @output instruction byte entry op cell accepted =>
    rcases point.host.putByte_cases byte with ⟨after, hwrite, hput⟩ | ⟨failure, after, hwrite, hput⟩
    · have hwritten : OutputStream.writeByte byte.toNat point.world.output = _ := hwrite
      simp [Arrival.goesOn, Point.current_world_emod cell, hwritten]
    · -- a write that fails replies one
      rw [hput] at accepted
      exact absurd accepted (show ¬ Width.reply.residue 1 = 0 by decide)
  | @outputFault instruction byte entry op cell refused =>
    rcases point.host.putByte_cases byte with ⟨after, hwrite, hput⟩ | ⟨failure, after, hwrite, hput⟩
    · rw [hput] at refused
      exact absurd rfl refused
    · have hwritten : OutputStream.writeByte byte.toNat point.world.output = _ := hwrite
      simp [Arrival.goesOn, Point.current_world_emod cell, hwritten]
  | finished ended => simp [ended] at hop
  | skipped entry | entered entry | ended entry | again entry =>
    rcases op_of_bracket hpaired entry (by simp) with hbracket | hbracket
    · simp [entry, hbracket] at hop
    · simp [entry, hbracket] at hop
  | right entry op | tooHigh entry op | left entry op | tooLow entry op | add entry op
  | sub entry op | input entry op | inputFault entry op =>
    simp [entry, Linked.op, Linked.instruction, op] at hop

/-- An input instruction goes on exactly if a byte is read, and stores it. -/
theorem goesOn_of_isInput (hpaired : Paired source program)
    (h : point.Advances program made arrival) (hasks : (point.turn program arrival).isInput) :
    (arrival.goesOn ↔ ∃ byte, (InputStream.readByte point.world.input).1 = .ok byte) ∧
      ∀ byte after, InputStream.readByte point.world.input = (.ok byte, after) →
        (arrival.world point.head).tape =
          point.world.tape.write (CellKind.byte.fromByte byte.toNat) := by
  have hop : program.instructions[point.index]?.map Linked.op = some .input :=
    of_decide_eq_true hasks
  cases h with
  | @input instruction entry op inside given =>
    rcases point.host.getByte_cases with ⟨byte, after, hread, hget⟩ | ⟨failure, after, hread, hget⟩
    · have hreply : InputStream.readByte point.world.input = _ := hread
      refine ⟨by simp [Arrival.goesOn, hreply], ?_⟩
      intro byte' after' hread'
      obtain ⟨rfl, -⟩ : byte = byte' ∧ after = after' := by simpa using hreply.symm.trans hread'
      rw [fromByte_byte, Point.write_world, hget, ofNat_residue_reply]
      rfl
    · -- a read that fails replies minus one
      rw [hget] at given
      exact absurd given (show ¬ 0 ≤ Width.reply.signed (Width.reply.residue (-1)) by decide)
  | @inputFault instruction entry op missing =>
    rcases point.host.getByte_cases with ⟨byte, after, hread, hget⟩ | ⟨failure, after, hread, hget⟩
    · rw [hget] at missing
      exact absurd (signed_residue_reply_nonneg byte) missing
    · have hreply : InputStream.readByte point.world.input = _ := hread
      refine ⟨by simp [Arrival.goesOn, hreply], ?_⟩
      intro byte' after' hread'
      cases hreply.symm.trans hread'
  | finished ended => simp [ended] at hop
  | skipped entry | entered entry | ended entry | again entry =>
    rcases op_of_bracket hpaired entry (by simp) with hbracket | hbracket
    · simp [entry, hbracket] at hop
    · simp [entry, hbracket] at hop
  | right entry op | tooHigh entry op | left entry op | tooLow entry op | add entry op
  | sub entry op | output entry op | outputFault entry op =>
    simp [entry, Linked.op, Linked.instruction, op] at hop

/-- The code of an instruction is a sound turn. -/
theorem sound_turn {size : Nat} (hpaired : Paired source program) (hinside : point.Inside size)
    (h : point.Advances program made arrival) :
    (point.turn program arrival).Sound .byte where
  streams := by
    rw [h.calls_turn hpaired]
    exact h.streams_turn
  completed := by
    rintro (hasks | hasks)
    · rw [Turn.succeeded_of_isOutput hasks]
      exact h.goesOn_of_isOutput hpaired hasks
    · rw [Turn.succeeded_of_isInput hasks]
      exact (h.goesOn_of_isInput hpaired hasks).1
  stores := by
    intro hasks byte rest hread
    have hhead : point.head < point.tape.size := by
      rw [hinside.size_eq]
      exact hinside.head_lt
    have htape := (h.goesOn_of_isInput hpaired hasks).2 byte _
      (InputStream.readByte_of_read hread)
    show point.world.tape.Stores .byte byte (arrival.world point.head).tape
    rw [htape]
    exact Tape.stores_write (by rw [Point.size_world]; exact hhead) .byte byte

end Point.Advances

/-! ## Turns and the code -/

section Passage

variable (program) (size : Nat) (console : Console ι ο)

/-- What the code of a native run comes to within a limit of instructions. -/
def codeRun (limit : Nat) : Step (CallLog ι ο) :=
  (start program size console).run (compile program size).function limit

/-- The calls that the code of a native run makes within a limit of instructions. -/
def codeCalls (limit : Nat) : List (HostCall × CallLog ι ο) :=
  (start program size console).calls (compile program size).function limit

/-- The first point of a native run. -/
def firstPoint : Point (CallLog ι ο) :=
  ⟨0, 0, Array.replicate size 0, ⟨announced program size console, []⟩⟩

/-- After `length` instructions of its code, a native run has taken some turns and arrives
somewhere. In every turn the code makes the calls of the instruction at its point, and leads where
that leads. -/
inductive Passes : Nat → List (Turn ι ο) → Arrival (CallLog ι ο) → Prop where
  /-- It comes to the first instruction, without calls. -/
  | first {length : Nat}
      (comes : (Arrival.point (firstPoint program size console)).ComesTo (codeFrom program size)
        (codeRun program size console length))
      (calls : codeCalls program size console length = []) :
      Passes length [] (.point (firstPoint program size console))
  /-- It takes one more turn. -/
  | turn {length more : Nat} {turns : List (Turn ι ο)} {point : Point (CallLog ι ο)}
      {made : List (HostCall × CallLog ι ο)} {arrival : Arrival (CallLog ι ο)}
      (passes : Passes length turns (.point point)) (advances : point.Advances program made arrival)
      (comes : arrival.ComesTo (codeFrom program size)
        (codeRun program size console (length + more)))
      (calls : codeCalls program size console (length + more) =
        codeCalls program size console length ++ made) :
      Passes (length + more) (turns ++ [point.turn program arrival]) arrival

/-- The turns that a native run has taken by a limit of instructions of its code. The last one may
be under way: it is counted from when it has made its call. -/
inductive Underway (limit : Nat) : List (Turn ι ο) → Prop where
  /-- The code has not come to the first instruction. -/
  | starting {length : Nat} {point : Point (CallLog ι ο)}
      (passes : Passes program size console length [] (.point point)) (lt : limit < length) :
      Underway limit []
  /-- The code is at an instruction that has made no call yet. -/
  | between {length length' : Nat} {turns : List (Turn ι ο)} {turn : Turn ι ο}
      {point : Point (CallLog ι ο)} {arrival : Arrival (CallLog ι ο)}
      (passes : Passes program size console length turns (.point point))
      (next : Passes program size console length' (turns ++ [turn]) arrival)
      (le : length ≤ limit) (lt : limit < length')
      (calls : codeCalls program size console limit = codeCalls program size console length) :
      Underway limit turns
  /-- The code is at an instruction that has made its call. -/
  | asked {length length' : Nat} {turns : List (Turn ι ο)} {turn : Turn ι ο}
      {point : Point (CallLog ι ο)} {arrival : Arrival (CallLog ι ο)}
      (passes : Passes program size console length turns (.point point))
      (next : Passes program size console length' (turns ++ [turn]) arrival)
      (le : length ≤ limit) (lt : limit < length')
      (calls : codeCalls program size console limit = codeCalls program size console length') :
      Underway limit (turns ++ [turn])
  /-- The code has returned. -/
  | ended {length : Nat} {turns : List (Turn ι ο)} {word : Int} {tape : Array UInt8}
      {log : CallLog ι ο}
      (passes : Passes program size console length turns (.returned word tape log))
      (le : length ≤ limit) : Underway limit turns

end Passage

variable {size length limit : Nat} {console : Console ι ο} {turns : List (Turn ι ο)}

/-- A larger limit only adds calls. -/
theorem codeCalls_extends {limit' : Nat} (h : limit ≤ limit') (program : LinkedProgram) (size : Nat)
    (console : Console ι ο) :
    codeCalls program size console limit <+: codeCalls program size console limit' :=
  State.calls_prefix h _

section Returned

variable {word : Int} {tape : Array UInt8} {log : CallLog ι ο}

/-- Code that has returned makes no more calls. -/
theorem codeCalls_of_returned (h : codeRun program size console length = .returned word tape log)
    (hle : length ≤ limit) :
    codeCalls program size console limit = codeCalls program size console length := by
  have hended : ∀ next, codeRun program size console length ≠ .running next := by
    rw [h]
    simp
  have hback : codeCalls program size console limit <+: codeCalls program size console length :=
    State.calls_prefix_of_ended hended limit
  exact hback.eq_of_length_le (codeCalls_extends hle _ _ _).length_le

/-- Code that returns within two limits returns the same. -/
theorem codeRun_eq_of_returned {word' : Int} {tape' : Array UInt8} {log' : CallLog ι ο}
    (h : codeRun program size console length = .returned word tape log)
    (h' : codeRun program size console limit = .returned word' tape' log') :
    Arrival.returned word tape log = .returned word' tape' log' := by
  have hsame : codeRun program size console length = codeRun program size console limit := by
    apply State.run_eq_run_of_ended
    · intro next hnext
      cases h.symm.trans hnext
    · intro next hnext
      cases h'.symm.trans hnext
  cases h.symm.trans (hsame.trans h')
  rfl

end Returned

namespace Passes

/-- The run has come to where the turns lead. -/
theorem comesTo (h : Passes program size console length turns arrival) :
    arrival.ComesTo (codeFrom program size) (codeRun program size console length) := by
  cases h with
  | first comes calls => exact comes
  | turn passes advances comes calls => exact comes

/-- On the way to a point the code has not returned. -/
theorem codeRun_ne_returned (h : Passes program size console length turns (.point point))
    (hle : limit ≤ length) (word : Int) (tape : Array UInt8) (log : CallLog ι ο) :
    codeRun program size console limit ≠ .returned word tape log := by
  intro hreturned
  obtain ⟨values, -, hrun⟩ := h.comesTo
  obtain ⟨earlier, hearlier⟩ := State.exists_running_of_le hle hrun
  cases hreturned.symm.trans hearlier

/-- The data pointer is on the tape at every point. -/
theorem inside (hpositive : 0 < size) (h : Passes program size console length turns arrival) :
    ∀ point, arrival = .point point → point.Inside size := by
  induction h with
  | first comes calls =>
    rintro _ ⟨rfl⟩
    exact ⟨Array.size_replicate, hpositive⟩
  | turn passes advances comes calls ih =>
    rintro next rfl
    exact (ih _ rfl).advances advances

/-- The streams at a point are those that the calls so far leave. -/
theorem streams_eq (h : Passes program size console length turns (.point point)) :
    point.world.streams =
      replay (streamCalls (codeCalls program size console length)) console.streams := by
  obtain ⟨values, -, hrun⟩ := h.comesTo
  have hstreams := streams_run_state (compile program size).function length
    (start program size console)
  rw [show State.run _ length _ = _ from hrun] at hstreams
  exact hstreams.trans (congrArg _ (streams_announced program size console))

/-- The calls of the code are accounted for by the turns. -/
theorem accounts (hpaired : Paired source program) (hpositive : 0 < size)
    (h : Passes program size console length turns arrival) :
    Accounts .byte console.streams (streamCalls (codeCalls program size console length)) turns := by
  induction h with
  | first comes calls =>
    rw [calls]
    exact accounts_nil _ _
  | @turn length more turns point made arrival passes advances comes calls ih =>
    have hinside := passes.inside hpositive point rfl
    rw [calls, streamCalls_append, ← advances.calls_turn hpaired]
    exact ih.snoc (advances.sound_turn hpaired hinside) passes.streams_eq

/-- As long as the code goes on, all instructions on the way have been executed; at the end of the
program, all that make calls. -/
theorem completed (h : Passes program size console length turns arrival) :
    (∀ point, arrival = .point point → ∀ turn ∈ turns, turn.completed) ∧
      ∀ tape log, arrival = .returned noFault tape log →
        ∀ turn ∈ turns, turn.isOutput ∨ turn.isInput → turn.completed := by
  induction h with
  | first comes calls => exact ⟨by simp, by simp⟩
  | turn passes advances comes calls ih =>
    have hbefore := ih.1 _ rfl
    constructor
    · rintro next rfl turn hturn
      rcases List.mem_append.mp hturn with hturn | hturn
      · exact hbefore turn hturn
      · rw [List.mem_singleton.mp hturn]
        rfl
    · rintro tape log rfl turn hturn hasks
      rcases List.mem_append.mp hturn with hturn | hturn
      · exact hbefore turn hturn
      · obtain rfl := List.mem_singleton.mp hturn
        exact absurd hasks (advances.not_asks_of_noFault rfl)

/-- A native run comes to the first instruction. -/
theorem exists_first (program : LinkedProgram) (hpositive : 0 < size) (console : Console ι ο) :
    ∃ length, Passes program size console length [] (.point (firstPoint program size console)) := by
  obtain ⟨values, hframed, hcourse⟩ := exists_course_start program
    (Array.size_replicate : (Array.replicate size (0 : UInt8)).size = size) hpositive
    (CallLog.mk (announced program size console) [])
  obtain ⟨length, hrun, hcalls⟩ := hcourse.leads
  exact ⟨length + 1, .first ⟨values, hframed, hrun⟩ hcalls⟩

/-- From every point a native run takes one more turn, with one call at most. -/
theorem exists_turn (hlink : source.link = .ok program) (hpositive : 0 < size)
    (hsize : size < Nat.pow 2 64) (h : Passes program size console length turns (.point point)) :
    ∃ length' turn arrival, length < length' ∧
      Passes program size console length' (turns ++ [turn]) arrival ∧
      (codeCalls program size console length' = codeCalls program size console length ∨
        ∃ call, codeCalls program size console length' =
          codeCalls program size console length ++ [call]) := by
  have hinside := h.inside hpositive point rfl
  obtain ⟨values, hframed, hrun⟩ := h.comesTo
  obtain ⟨made, arrival, hadvances⟩ := hinside.exists_advances hlink
  obtain ⟨calling, last, ⟨count, hlast, -, hcalling⟩, hcomes, hmade, -⟩ :=
    exists_course_of_advances hlink hsize hinside hframed hadvances
  have hcalls : codeCalls program size console (length + (count + 1)) =
      codeCalls program size console length ++ made := by
    rw [← hmade, ← hcalling, State.made_callers, ← State.calls_eq_made]
    exact State.calls_add hrun (count + 1)
  refine ⟨length + (count + 1), _, arrival, by omega, .turn h hadvances ?_ hcalls, ?_⟩
  · rw [codeRun, State.run_add hrun, hlast]
    exact hcomes
  · rw [hcalls]
    rcases hadvances.made_cases with rfl | ⟨call, rfl⟩
    · exact .inl (List.append_nil _)
    · exact .inr ⟨call, rfl⟩

end Passes

/-! ## Native runs at every moment -/

namespace Underway

/-- From a point that it has come to, a native run is somewhere at every later moment. -/
theorem exists_of_passes (hlink : source.link = .ok program) (hpositive : 0 < size)
    (hsize : size < Nat.pow 2 64) (h : Passes program size console length turns (.point point))
    (hle : length ≤ limit) : ∃ turns, Underway program size console limit turns := by
  -- the code executes at least one instruction in a turn, so what is left of the limit gets smaller
  induction hleft : limit - length using Nat.strongRecOn generalizing length turns point with
  | ind left ih =>
    obtain ⟨length', turn, arrival, hlt, hnext, hcalls⟩ := h.exists_turn hlink hpositive hsize
    by_cases hreached : length' ≤ limit
    · cases arrival with
      | point next => exact ih (limit - length') (by omega) hnext hreached rfl
      | returned word tape log => exact ⟨_, .ended hnext hreached⟩
    · -- the turn makes one call at most, so it has made all of its calls or none
      have hlimit : limit < length' := by omega
      have hbefore := codeCalls_extends hle program size console
      have hafter := codeCalls_extends (Nat.le_of_lt hlimit) program size console
      have hsame (hback : codeCalls program size console limit <+:
          codeCalls program size console length) :
          ∃ turns, Underway program size console limit turns :=
        ⟨_, .between h hnext hle hlimit (hback.eq_of_length_le hbefore.length_le)⟩
      rcases hcalls with hcalls | ⟨call, hcalls⟩
      · exact hsame (hcalls ▸ hafter)
      · rcases List.prefix_concat_iff.mp (hcalls ▸ hafter) with hall | hback
        · exact ⟨_, .asked h hnext hle hlimit (hall.trans hcalls.symm)⟩
        · exact hsame hback

/-- A native run is somewhere at every moment. -/
theorem exists_of_link (hlink : source.link = .ok program) (hpositive : 0 < size)
    (hsize : size < Nat.pow 2 64) (console : Console ι ο) (limit : Nat) :
    ∃ turns, Underway program size console limit turns := by
  obtain ⟨length, hfirst⟩ := Passes.exists_first program hpositive console
  by_cases hlimit : limit < length
  · exact ⟨[], .starting hfirst hlimit⟩
  · exact exists_of_passes hlink hpositive hsize hfirst (Nat.le_of_not_lt hlimit)

/-- The calls of the code are accounted for by the turns at every moment. -/
theorem accounts (hpaired : Paired source program) (hpositive : 0 < size)
    (h : Underway program size console limit turns) :
    Accounts .byte console.streams (streamCalls (codeCalls program size console limit)) turns := by
  cases h with
  | @starting length point passes lt =>
    have hnone : codeCalls program size console length = [] := by
      generalize hturns : ([] : List (Turn ι ο)) = turns at passes
      cases passes with
      | first comes calls => exact calls
      | turn passes advances comes calls => simp at hturns
    have hprefix := codeCalls_extends (Nat.le_of_lt lt) program size console
    rw [hnone] at hprefix
    rw [List.prefix_nil.mp hprefix]
    exact accounts_nil _ _
  | between passes next le lt calls =>
    rw [calls]
    exact passes.accounts hpaired hpositive
  | asked passes next le lt calls =>
    rw [calls]
    exact next.accounts hpaired hpositive
  | ended passes le =>
    rw [codeCalls_of_returned passes.comesTo le]
    exact passes.accounts hpaired hpositive

/-- If the code has returned that there was no fault, all instructions that make calls are
executed. -/
theorem completed_of_returned {tape : Array UInt8} {log : CallLog ι ο}
    (h : Underway program size console limit turns)
    (hreturned : codeRun program size console limit = .returned noFault tape log) :
    ∀ turn ∈ turns, turn.isOutput ∨ turn.isInput → turn.completed := by
  -- the last turn, if it is cut short, leads to the same end
  have hpasses {length : Nat} {turns : List (Turn ι ο)} {arrival : Arrival (CallLog ι ο)}
      (hlt : limit < length) (hnext : Passes program size console length turns arrival) :
      ∀ turn ∈ turns, turn.isOutput ∨ turn.isInput → turn.completed := by
    cases arrival with
    | point next => exact absurd hreturned (hnext.codeRun_ne_returned (Nat.le_of_lt hlt) _ _ _)
    | returned word tape' log' =>
      exact hnext.completed.2 tape log (codeRun_eq_of_returned hnext.comesTo hreturned)
  cases h with
  | starting passes lt => simp
  | between passes next le lt calls =>
    intro turn hturn hasks
    exact passes.completed.1 _ rfl turn hturn
  | asked passes next le lt calls => exact hpasses lt next
  | ended passes le =>
    exact passes.completed.2 tape log (codeRun_eq_of_returned passes.comesTo hreturned)

end Underway

omit [InputStream ι] [OutputStream ο] in
/-- A native run ends with the program only if the code returns that there was no fault. -/
theorem exists_returned_of_finished {step : Step (CallLog ι ο)} {tape : Array UInt8}
    (h : (conclude program step).ending = .finished tape) :
    ∃ log, step = .returned noFault tape log := by
  have hexplain (failures : List Failure) (word : Int) :
      explain program failures word ≠ .finished tape := by
    unfold explain
    grind
  cases step with
  | running state => cases h
  | stuck reason log => cases h
  | returned word tape' log =>
    by_cases hword : word = noFault
    · rw [conclude, if_pos hword] at h
      cases h
      exact ⟨log, by rw [hword]⟩
    · rw [conclude, if_neg hword] at h
      exact absurd h (hexplain log.failures word)

/-- The turns that a native run has taken by a limit of instructions of its code; if no tape can be
made, there are none. -/
def Takes (limit : Nat) (program : LinkedProgram) (size : Int) (console : Console ι ο)
    (turns : List (Turn ι ο)) : Prop :=
  match tapeSize size with
  | .error _ => turns = []
  | .ok count => Underway program count console limit turns

namespace Takes

variable {size : Int}

theorem exists_of_link (hlink : source.link = .ok program) (limit : Nat) (size : Int)
    (console : Console ι ο) : ∃ turns, Takes limit program size console turns := by
  unfold Takes
  cases hcount : tapeSize size with
  | error error => exact ⟨[], rfl⟩
  | ok count =>
    obtain ⟨hpositive, hbound⟩ := tapeSize_eq_ok hcount
    exact Underway.exists_of_link hlink hpositive (Nat.lt_trans hbound (by decide)) console limit

/-- The calls of a native run are accounted for by its turns. -/
theorem accounts (hpaired : Paired source program) (h : Takes limit program size console turns) :
    Accounts .byte console.streams (calls limit program size console) turns := by
  unfold Takes at h
  unfold calls
  cases hcount : tapeSize size with
  | error error =>
    rw [hcount] at h
    obtain rfl : turns = [] := h
    exact accounts_nil _ _
  | ok count =>
    rw [hcount] at h
    exact Underway.accounts hpaired (tapeSize_eq_ok hcount).1 h

/-- If a native run ends with the program, all instructions that make calls are executed. -/
theorem completed_of_finished {tape : Array UInt8} (h : Takes limit program size console turns)
    (hfinished : (run limit program size console).ending = .finished tape) :
    ∀ turn ∈ turns, turn.isOutput ∨ turn.isInput → turn.completed := by
  unfold Takes at h
  cases hcount : tapeSize size with
  | error error =>
    rw [hcount] at h
    obtain rfl : turns = [] := h
    simp
  | ok count =>
    rw [hcount] at h
    rw [run_eq hcount] at hfinished
    obtain ⟨log, hreturned⟩ := exists_returned_of_finished hfinished
    exact Underway.completed_of_returned h hreturned

end Takes

/-- The calls of a native run are accounted for, wherever it is cut off. -/
structure RunAccounted (limit : Nat) (program : LinkedProgram) (size : Int)
    (console : Console ι ο) : Prop where
  /-- The run has taken some turns. -/
  takes : ∃ turns, Takes limit program size console turns
  /-- The calls are accounted for by the turns. -/
  accounts : ∀ turns, Takes limit program size console turns →
    Accounts .byte console.streams (calls limit program size console) turns
  /-- If all calls have succeeded, the totals are right. -/
  smooth : ∀ turns, Takes limit program size console turns →
    (∀ exchange ∈ exchanges (calls limit program size console) console.streams,
      exchange.succeeded) →
    Totals console.streams (calls limit program size console) turns
  /-- If the run ends with the program, the totals are right. -/
  finished : ∀ turns tape, Takes limit program size console turns →
    (run limit program size console).ending = .finished tape →
    Totals console.streams (calls limit program size console) turns

/-- Whatever the streams reply, the calls of a native run of a linked program are accounted for. -/
theorem runAccounted_of_link (hlink : source.link = .ok program) (limit : Nat) (size : Int)
    (console : Console ι ο) : RunAccounted limit program size console := by
  have haccounts (turns : List (Turn ι ο)) (htakes : Takes limit program size console turns) :=
    htakes.accounts (Program.paired_of_link_eq_ok hlink)
  refine ⟨Takes.exists_of_link hlink limit size console, haccounts, ?_, ?_⟩
  · intro turns htakes hsucceeded
    exact (haccounts turns htakes).totals_of_completed ((haccounts turns htakes).smooth hsucceeded)
  · intro turns tape htakes hfinished
    exact (haccounts turns htakes).totals_of_completed (htakes.completed_of_finished hfinished)

end Brainfuck.Native

namespace Brainfuck.Program

variable {ι ο : Type} [InputStream ι] [OutputStream ο] {source : Program} {program : LinkedProgram}

/-- Whatever the streams reply, all calls on them are accounted for: those of every machine that
runs a linked program, after every step of it, and those of every native run, after every
instruction of the code. -/
theorem accounts_of_link (hlink : source.link = .ok program) (console : Console ι ο) :
    (∀ kinds (machine : Machine), machine.Reached program kinds → machine.Accounted console) ∧
      ∀ limit size, Native.RunAccounted limit program size console := by
  have hpaired := paired_of_link_eq_ok hlink
  constructor
  · intro kinds machine hreached
    obtain ⟨hbounds, hprogram⟩ := hreached.inBounds hpaired.jumpsInside
    rw [← hprogram] at hpaired
    exact hbounds.accounted hpaired console
  · intro limit size
    exact Native.runAccounted_of_link hlink limit size console

/-- A console whose input gives two bytes at a time, and whose output stores the first byte written
to it but cannot flush it. -/
def unflushedConsole : Console ScriptedInput ScriptedOutput :=
  ⟨{ remaining := [72, 105, 33], chunk := 2 },
    { outage := some (⟨0, some 1⟩, some ⟨.invalidValue, "boom"⟩), failing := .flush }, false, ""⟩

/-- A program that reads a byte and writes it out. -/
def echo : LinkedProgram := ⟨"echo.bf", #[.plain ⟨.input, 1, 1⟩, .plain ⟨.output, 1, 2⟩]⟩

/-- A byte is read once and stored twice, as the instruction that writes it is tried again after the
flush that failed. -/
theorem accounts_unflushedConsole :
    ∃ machine, (ofSource "echo.bf" [0x2c, 0x2e]).link = .ok echo ∧
      MachineSettings.build { size := 1 } echo = .ok machine ∧
      Accounts machine.cell unflushedConsole.streams
        [.read, .write 72, .flush, .write 72, .flush] (machine.turns 4 unflushedConsole) ∧
      (machine.steps 4 unflushedConsole).reply = .finished ∧
      (machine.steps 4 unflushedConsole).console.output.stored = #[72, 72] ∧
      ∃ turns, Native.Takes 40 echo 1 unflushedConsole turns ∧
        Accounts .byte unflushedConsole.streams (Native.calls 40 echo 1 unflushedConsole)
          turns := by
  have hlink : (ofSource "echo.bf" [0x2c, 0x2e]).link = .ok echo := rfl
  have haccounts := accounts_of_link hlink unflushedConsole
  have hbuild : MachineSettings.build { size := 1 } echo = .ok _ := rfl
  obtain ⟨turns, htakes⟩ := (haccounts.2 40 1).takes
  refine ⟨_, hlink, hbuild, ?_, by decide, by decide, turns, htakes, ?_⟩
  · exact (haccounts.1 _ _ ⟨_, _, [], hbuild, .refl, rfl⟩).steps 4
  · exact (haccounts.2 40 1).accounts turns htakes

end Brainfuck.Program
