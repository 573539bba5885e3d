import Brainfuck.Proofs.Bounds
import Brainfuck.Proofs.Stepping
import Mathlib.Data.List.Forall2

/-! # Every byte is accounted for

A run is a row of turns, one for each instruction that was executed or tried. The calls on the
streams and the replies to them are set against the turns: what was written and read, flushed and
stored, and when.

Main definitions: `Exchange`, `Flushed`, `Turn`, `Turn.Sound`, `Accounts`, `Machine.turns`,
`Machine.Accounted`. Main statements: one more sound turn is accounted for by its own calls
(`Accounts.snoc`), and so the steps of a machine are accounted for by its turns
(`Machine.accounts_turns`). -/

namespace Brainfuck

variable {ι ο : Type}

/-! ## Calls with their replies -/

/-- Whether a call offers a byte to the output. -/
def StreamCall.isWrite : StreamCall → Bool
  | write _ => true
  | _ => false

/-- A call on one of the streams, and the reply to it. -/
inductive Exchange where
  /-- The input was asked for a byte. -/
  | read (reply : ReadReply)
  /-- The output was offered a byte. -/
  | write (byte : UInt8) (reply : WriteReply)
  /-- The output was flushed. -/
  | flush (reply : FlushReply)
deriving DecidableEq, Repr

namespace Exchange

/-- The byte that the output took. -/
def stored? : Exchange → Option UInt8
  | write byte .accepted => some byte
  | _ => none

/-- The block of bytes that the input gave, if it is not empty. -/
def block? : Exchange → Option (List UInt8)
  | read (.data (byte :: rest)) => some (byte :: rest)
  | _ => none

/-- Whether the call did what it was made for. -/
def succeeded : Exchange → Bool
  | read (.data (_ :: _)) => true
  | write _ .accepted => true
  | flush .done => true
  | _ => false

@[simp] theorem succeeded_read_failed (failure : Failure) :
    (read (.failed failure)).succeeded = false := rfl

@[simp] theorem succeeded_read_nil : (read (.data [])).succeeded = false := rfl

@[simp] theorem succeeded_read_cons (byte : UInt8) (rest : List UInt8) :
    (read (.data (byte :: rest))).succeeded = true := rfl

@[simp] theorem succeeded_write (byte : UInt8) (reply : WriteReply) :
    (write byte reply).succeeded = decide (reply = .accepted) := by
  cases reply <;> rfl

@[simp] theorem succeeded_flush (reply : FlushReply) :
    (flush reply).succeeded = decide (reply = .done) := by
  cases reply <;> rfl

end Exchange

/-- Every write that was accepted is followed by one flush, and there are no other flushes. -/
inductive Flushed : List Exchange → Prop where
  /-- Nothing was done. -/
  | nil : Flushed []
  /-- A read comes first. -/
  | read (reply : ReadReply) {rest : List Exchange} (flushed : Flushed rest) :
      Flushed (.read reply :: rest)
  /-- An accepted write and its flush come first. -/
  | accepted (byte : UInt8) (reply : FlushReply) {rest : List Exchange} (flushed : Flushed rest) :
      Flushed (.write byte .accepted :: .flush reply :: rest)
  /-- A write that was not accepted comes first. -/
  | unaccepted (byte : UInt8) {reply : WriteReply} (unaccepted : reply ≠ .accepted)
      {rest : List Exchange} (flushed : Flushed rest) : Flushed (.write byte reply :: rest)

theorem Flushed.append {first second : List Exchange} (h : Flushed first) (h' : Flushed second) :
    Flushed (first ++ second) := by
  induction h with
  | nil => exact h'
  | read reply _ ih => exact .read reply ih
  | accepted byte reply _ ih => exact .accepted byte reply ih
  | unaccepted byte unaccepted _ ih => exact .unaccepted byte unaccepted ih

section Exchanges

variable [InputStream ι] [OutputStream ο]

/-- Some calls on two streams, with the replies to them. -/
def exchanges : List StreamCall → ι × ο → List Exchange
  | [], _ => []
  | .read :: rest, (input, output) =>
    .read (InputStream.read input).1 :: exchanges rest ((InputStream.read input).2, output)
  | .write byte :: rest, (input, output) =>
    .write byte (OutputStream.write byte output).1 ::
      exchanges rest (input, (OutputStream.write byte output).2)
  | .flush :: rest, (input, output) =>
    .flush (OutputStream.flush output).1 ::
      exchanges rest (input, (OutputStream.flush output).2)

theorem exchanges_append (first second : List StreamCall) (streams : ι × ο) :
    exchanges (first ++ second) streams =
      exchanges first streams ++ exchanges second (replay first streams) := by
  induction first generalizing streams with
  | nil => rfl
  | cons call rest ih =>
    cases call with
    | read => exact congrArg _ (ih _)
    | write byte => exact congrArg _ (ih _)
    | flush => exact congrArg _ (ih _)

omit [InputStream ι] in
/-- A byte is offered to the output, which is flushed if it accepts it. -/
theorem writeCalls_of_byte {value : Int} (h : 0 ≤ value ∧ value < 256) (output : ο) :
    writeCalls value output = .write (UInt8.ofNat value.toNat) ::
      if (OutputStream.write (UInt8.ofNat value.toNat) output).1 = .accepted then [.flush]
      else [] := by
  rw [writeCalls, if_pos h]
  split
  next haccepted => rw [if_pos haccepted]
  next hother => rw [if_neg hother]

end Exchanges

/-- The first byte of a block is the one that is read. -/
theorem InputStream.readByte_of_read [InputStream ι] {input : ι} {byte : UInt8} {rest : List UInt8}
    (h : (read input).1 = .data (byte :: rest)) :
    readByte input = (.ok byte, (read input).2) := by
  rw [readByte]
  generalize read input = answer at h
  obtain ⟨reply, after⟩ := answer
  obtain rfl : reply = .data (byte :: rest) := h
  rfl

/-! ## Turns -/

/-- The two streams of a world. -/
def World.streams (world : World ι ο) : ι × ο := (world.input, world.output)

/-- What an instruction did, or tried to do. -/
structure Turn (ι ο : Type) where
  /-- The operation; there is none if the program had ended. -/
  op : Option Op
  /-- The world before. -/
  before : World ι ο
  /-- The world afterwards. -/
  after : World ι ο
  /-- Whether the instruction was executed. -/
  completed : Bool

/-- The low eight bits of the current cell. -/
def Tape.lowByte (tape : Tape) : UInt8 := UInt8.ofNat (tape.current % 256).toNat

/-- A byte, reduced to the width of a cell, is stored in the current cell and in no other. -/
structure Tape.Stores (kind : CellKind) (byte : UInt8) (before after : Tape) : Prop where
  /-- The data pointer stays where it is. -/
  head : after.head = before.head
  /-- There are no cells more or less. -/
  size : after.size = before.size
  /-- The current cell holds the byte. -/
  current : after.cells[before.head]? = some (kind.wrap byte.toNat)
  /-- All other cells hold what they held. -/
  others : ∀ index, index ≠ before.head → after.cells[index]? = before.cells[index]?

theorem Tape.stores_write {tape : Tape} (h : tape.head < tape.size) (kind : CellKind)
    (byte : UInt8) : tape.Stores kind byte (tape.write (kind.fromByte byte.toNat)) where
  head := rfl
  size := size_write tape _
  current := by
    have hbound : tape.head < tape.cells.size := h
    simp [write, hbound, CellKind.fromByte]
  others index hindex := by
    simp [write, Ne.symm hindex]

namespace Turn

/-- Whether the turn is one of an output instruction. -/
def isOutput (turn : Turn ι ο) : Bool := turn.op = some .output

/-- Whether the turn is one of an input instruction. -/
def isInput (turn : Turn ι ο) : Bool := turn.op = some .input

/-- Whether the turn is one of an input instruction that was executed. -/
def received (turn : Turn ι ο) : Bool := turn.isInput && turn.completed

section Output

variable [OutputStream ο]

/-- The calls that the instruction makes. -/
def calls (turn : Turn ι ο) : List StreamCall :=
  match turn.op with
  | some .input => [.read]
  | some .output => writeCalls (turn.before.tape.current % 256) turn.before.output
  | _ => []

/-- The reply to the write of an output instruction. -/
def writeReply (turn : Turn ι ο) : WriteReply :=
  (OutputStream.write turn.before.tape.lowByte turn.before.output).1

/-- The low byte of the current cell, if the turn is one of an output instruction whose write was
accepted. -/
def wrote? (turn : Turn ι ο) : Option UInt8 :=
  if turn.isOutput ∧ turn.writeReply = .accepted then some turn.before.tape.lowByte else none

end Output

variable [InputStream ι] [OutputStream ο]

/-- The calls that the instruction makes, with the replies to them. -/
def exchanges (turn : Turn ι ο) : List Exchange :=
  Brainfuck.exchanges turn.calls turn.before.streams

/-- What a turn may do: it touches the streams by its calls only; if it makes calls, it is completed
exactly if these succeed; and an input instruction stores the first byte of the block it is given.
-/
structure Sound (kind : CellKind) (turn : Turn ι ο) : Prop where
  /-- The calls are all that is done to the streams. -/
  streams : turn.after.streams = replay turn.calls turn.before.streams
  /-- The instruction is executed exactly if its calls succeed. -/
  completed : turn.isOutput ∨ turn.isInput →
    (turn.completed ↔ ∀ exchange ∈ turn.exchanges, exchange.succeeded)
  /-- The first byte of a block is stored. -/
  stores : turn.isInput → ∀ byte rest,
    (InputStream.read turn.before.input).1 = .data (byte :: rest) →
    turn.before.tape.Stores kind byte turn.after.tape

variable {turn : Turn ι ο}

omit [InputStream ι] in
theorem calls_of_isOutput (h : turn.isOutput) :
    turn.calls = .write turn.before.tape.lowByte ::
      if turn.writeReply = .accepted then [.flush] else [] := by
  have hop : turn.op = some .output := of_decide_eq_true h
  simp only [calls, hop]
  exact writeCalls_of_byte (by omega) turn.before.output

omit [InputStream ι] in
theorem calls_of_isInput (h : turn.isInput) : turn.calls = [.read] := by
  have hop : turn.op = some .input := of_decide_eq_true h
  simp only [calls, hop]

omit [InputStream ι] in
theorem calls_of_not (ho : turn.isOutput = false) (hi : turn.isInput = false) :
    turn.calls = [] := by
  have hout : turn.op ≠ some .output := of_decide_eq_false ho
  have hin : turn.op ≠ some .input := of_decide_eq_false hi
  unfold calls
  split <;> simp_all

theorem exchanges_of_isOutput (h : turn.isOutput) :
    turn.exchanges = .write turn.before.tape.lowByte turn.writeReply ::
      if turn.writeReply = .accepted then
        [.flush (OutputStream.flush
          (OutputStream.write turn.before.tape.lowByte turn.before.output).2).1]
      else [] := by
  rw [exchanges, calls_of_isOutput h]
  by_cases haccepted : turn.writeReply = .accepted
  · rw [if_pos haccepted, if_pos haccepted]
    rfl
  · rw [if_neg haccepted, if_neg haccepted]
    rfl

theorem exchanges_of_isInput (h : turn.isInput) :
    turn.exchanges = [.read (InputStream.read turn.before.input).1] := by
  rw [exchanges, calls_of_isInput h]
  rfl

theorem exchanges_of_not (ho : turn.isOutput = false) (hi : turn.isInput = false) :
    turn.exchanges = [] := by
  rw [exchanges, calls_of_not ho hi]
  rfl

omit [InputStream ι] [OutputStream ο] in
/-- A turn is one of an output instruction, of an input instruction, or of another one. -/
theorem output_or_input_or_not (turn : Turn ι ο) :
    (turn.isOutput = true ∧ turn.isInput = false) ∨
      (turn.isOutput = false ∧ turn.isInput = true) ∨
      (turn.isOutput = false ∧ turn.isInput = false) := by
  unfold isOutput isInput
  by_cases hout : turn.op = some .output
  · simp [hout]
  · by_cases hin : turn.op = some .input
    · simp [hin]
    · simp [hout, hin]

/-- The calls of an output instruction succeed if the byte is written. -/
theorem succeeded_of_isOutput (h : turn.isOutput) :
    (∀ exchange ∈ turn.exchanges, exchange.succeeded) ↔
      (OutputStream.writeByte (turn.before.tape.current % 256) turn.before.output).1 = .ok () := by
  have hbyte : 0 ≤ turn.before.tape.current % 256 ∧ turn.before.tape.current % 256 < 256 := by
    omega
  rw [exchanges_of_isOutput h, OutputStream.writeByte, if_pos hbyte]
  unfold writeReply Tape.lowByte
  cases OutputStream.write (UInt8.ofNat (turn.before.tape.current % 256).toNat)
      turn.before.output with
  | mk reply after =>
    cases reply with
    | accepted =>
      cases hflush : OutputStream.flush after with
      | mk reply last => cases reply <;> simp [hflush]
    | refused => simp
    | failed failure => simp

/-- The call of an input instruction succeeds if a byte is read. -/
theorem succeeded_of_isInput (h : turn.isInput) :
    (∀ exchange ∈ turn.exchanges, exchange.succeeded) ↔
      ∃ byte, (InputStream.readByte turn.before.input).1 = .ok byte := by
  rw [exchanges_of_isInput h, InputStream.readByte]
  cases InputStream.read turn.before.input with
  | mk reply after =>
    cases reply with
    | data block => cases block <;> simp
    | failed failure => simp

omit [InputStream ι] in
/-- Only output instructions write, and each does so once. -/
theorem countP_isWrite_calls (turn : Turn ι ο) :
    turn.calls.countP StreamCall.isWrite = [turn].countP isOutput := by
  rcases turn.output_or_input_or_not with ⟨ho, -⟩ | ⟨ho, hi⟩ | ⟨ho, hi⟩
  · rw [calls_of_isOutput ho]
    by_cases haccepted : turn.writeReply = .accepted
    · simp [haccepted, ho, StreamCall.isWrite, List.countP_cons]
    · simp [haccepted, ho, StreamCall.isWrite]
  · simp [calls_of_isInput hi, ho, StreamCall.isWrite]
  · simp [calls_of_not ho hi, ho]

omit [InputStream ι] in
/-- Only input instructions read, and each does so once. -/
theorem count_read_calls (turn : Turn ι ο) :
    turn.calls.count .read = [turn].countP isInput := by
  rcases turn.output_or_input_or_not with ⟨ho, hi⟩ | ⟨-, hi⟩ | ⟨ho, hi⟩
  · rw [calls_of_isOutput ho]
    by_cases haccepted : turn.writeReply = .accepted
    · simp [haccepted, hi]
    · simp [haccepted, hi]
  · simp [calls_of_isInput hi, hi]
  · simp [calls_of_not ho hi, hi]

theorem flushed_exchanges (turn : Turn ι ο) : Flushed turn.exchanges := by
  rcases turn.output_or_input_or_not with ⟨ho, -⟩ | ⟨-, hi⟩ | ⟨ho, hi⟩
  · rw [exchanges_of_isOutput ho]
    by_cases haccepted : turn.writeReply = .accepted
    · rw [if_pos haccepted, haccepted]
      exact .accepted _ _ .nil
    · rw [if_neg haccepted]
      exact .unaccepted _ haccepted .nil
  · rw [exchanges_of_isInput hi]
    exact .read _ .nil
  · rw [exchanges_of_not ho hi]
    exact .nil

/-- What is stored is the low byte of the current cell of an output instruction whose write was
accepted. -/
theorem stored_exchanges (turn : Turn ι ο) :
    turn.exchanges.filterMap Exchange.stored? = [turn].filterMap wrote? := by
  rcases turn.output_or_input_or_not with ⟨ho, -⟩ | ⟨ho, hi⟩ | ⟨ho, hi⟩
  · rw [exchanges_of_isOutput ho]
    cases hreply : turn.writeReply with
    | accepted => simp [wrote?, ho, hreply, Exchange.stored?]
    | refused => simp [wrote?, ho, hreply, Exchange.stored?]
    | failed failure => simp [wrote?, ho, hreply, Exchange.stored?]
  · simp [exchanges_of_isInput hi, wrote?, ho, Exchange.stored?]
  · simp [exchanges_of_not ho hi, wrote?, ho]

/-- If a turn that makes calls is completed, what it wrote was accepted and flushed. -/
theorem Sound.totals {kind : CellKind} (h : turn.Sound kind)
    (hcompleted : turn.isOutput ∨ turn.isInput → turn.completed) :
    (turn.exchanges.filterMap Exchange.stored?).length = [turn].countP isOutput ∧
      turn.calls.count .flush = [turn].countP isOutput := by
  rcases turn.output_or_input_or_not with ⟨ho, -⟩ | ⟨ho, hi⟩ | ⟨ho, hi⟩
  · have hsucceeded := (h.completed (.inl ho)).mp (hcompleted (.inl ho))
    rw [exchanges_of_isOutput ho] at hsucceeded
    have haccepted : turn.writeReply = .accepted := by
      have hwrite := hsucceeded _ List.mem_cons_self
      cases hreply : turn.writeReply with
      | accepted => rfl
      | refused => simp [hreply] at hwrite
      | failed failure => simp [hreply] at hwrite
    rw [stored_exchanges, calls_of_isOutput ho]
    simp [wrote?, ho, haccepted]
  · simp [exchanges_of_isInput hi, calls_of_isInput hi, ho, Exchange.stored?]
  · simp [exchanges_of_not ho hi, calls_of_not ho hi, ho]

/-- An input instruction that was executed stores the first byte of the block it was given; one that
was not executed was given none. -/
theorem Sound.received_exchanges {kind : CellKind} (h : turn.Sound kind) :
    List.Forall₂ (fun (turn : Turn ι ο) block => ∃ byte rest, block = byte :: rest ∧
      turn.before.tape.Stores kind byte turn.after.tape)
      ([turn].filter received) (turn.exchanges.filterMap Exchange.block?) := by
  rcases turn.output_or_input_or_not with ⟨ho, hi⟩ | ⟨-, hi⟩ | ⟨ho, hi⟩
  · rw [exchanges_of_isOutput ho]
    by_cases haccepted : turn.writeReply = .accepted
    · simp [haccepted, received, hi, Exchange.block?]
    · simp [haccepted, received, hi, Exchange.block?]
  · have hcompleted := h.completed (.inr hi)
    have hstores := h.stores hi
    rw [exchanges_of_isInput hi] at hcompleted ⊢
    cases hreply : (InputStream.read turn.before.input).1 with
    | failed failure =>
      have hnot : turn.completed = false := by simpa [hreply] using hcompleted
      simp [received, hnot, Exchange.block?]
    | data block =>
      cases block with
      | nil =>
        have hnot : turn.completed = false := by
          simpa [hreply] using hcompleted
        simp [received, hnot, Exchange.block?]
      | cons byte rest =>
        have hdone : turn.completed = true := by
          simpa [hreply] using hcompleted
        simpa [received, hi, hdone, Exchange.block?] using hstores byte rest hreply
  · simp [exchanges_of_not ho hi, received, hi]

/-- Input is consumed by input instructions only. -/
theorem Sound.input_eq {kind : CellKind} (h : turn.Sound kind) (hop : turn.op ≠ some .input) :
    turn.after.input = turn.before.input := by
  have hinput : turn.isInput = false := decide_eq_false hop
  have hstreams := congrArg Prod.fst h.streams
  rcases turn.output_or_input_or_not with ⟨ho, -⟩ | ⟨-, hi⟩ | ⟨ho, hi⟩
  · rw [calls_of_isOutput ho] at hstreams
    by_cases haccepted : turn.writeReply = .accepted
    · simpa [haccepted, World.streams, replay] using hstreams
    · simpa [haccepted, World.streams, replay] using hstreams
  · rw [hinput] at hi
    cases hi
  · rw [calls_of_not ho hi] at hstreams
    exact hstreams

end Turn

/-! ## Rows of turns -/

/-- The streams that a turn leaves are those that the next one finds. -/
inductive Joined (start : ι × ο) : List (Turn ι ο) → ι × ο → Prop where
  /-- Nothing was done. -/
  | nil : Joined start [] start
  /-- One more turn was taken. -/
  | snoc {turns : List (Turn ι ο)} {streams : ι × ο} (joined : Joined start turns streams)
      (turn : Turn ι ο) (finds : turn.before.streams = streams) :
      Joined start (turns ++ [turn]) turn.after.streams

section Rows

variable [InputStream ι] [OutputStream ο]

/-- The calls made on two streams are accounted for by turns. -/
structure Accounts (kind : CellKind) (start : ι × ο) (calls : List StreamCall)
    (turns : List (Turn ι ο)) : Prop where
  /-- The turns follow on each other, and the calls are all that they do to the streams. -/
  joined : Joined start turns (replay calls start)
  /-- There is a write for each output instruction. -/
  writes : calls.countP StreamCall.isWrite = turns.countP Turn.isOutput
  /-- There is a read for each input instruction. -/
  reads : calls.count .read = turns.countP Turn.isInput
  /-- There is a flush after each accepted write, and no other. -/
  flushes : Flushed (exchanges calls start)
  /-- What is stored are the low bytes of the current cells of the output instructions whose writes
  were accepted. -/
  stored : (exchanges calls start).filterMap Exchange.stored? = turns.filterMap Turn.wrote?
  /-- The input instructions that were executed store the first bytes of the blocks that are not
  empty, one by one. -/
  received : List.Forall₂ (fun turn block => ∃ byte rest, block = byte :: rest ∧
      turn.before.tape.Stores kind byte turn.after.tape)
    (turns.filter Turn.received) ((exchanges calls start).filterMap Exchange.block?)
  /-- Only input instructions consume input. -/
  input : ∀ turn ∈ turns, turn.op ≠ some .input → turn.after.input = turn.before.input
  /-- If all calls succeed, all instructions that make calls are executed. -/
  smooth : (∀ exchange ∈ exchanges calls start, exchange.succeeded) →
    ∀ turn ∈ turns, turn.isOutput ∨ turn.isInput → turn.completed
  /-- If all instructions that make calls are executed, each output instruction has stored one byte
  and flushed once. -/
  totals : (∀ turn ∈ turns, turn.isOutput ∨ turn.isInput → turn.completed) →
    ((exchanges calls start).filterMap Exchange.stored?).length = turns.countP Turn.isOutput ∧
      calls.count .flush = turns.countP Turn.isOutput

/-- Each output instruction has made one write, one flush and stored one byte, and each input
instruction has made one read. -/
structure Totals (start : ι × ο) (calls : List StreamCall) (turns : List (Turn ι ο)) : Prop where
  /-- The number of bytes stored. -/
  stored : ((exchanges calls start).filterMap Exchange.stored?).length = turns.countP Turn.isOutput
  /-- The number of writes. -/
  writes : calls.countP StreamCall.isWrite = turns.countP Turn.isOutput
  /-- The number of flushes. -/
  flushes : calls.count .flush = turns.countP Turn.isOutput
  /-- The number of reads. -/
  reads : calls.count .read = turns.countP Turn.isInput

variable {kind : CellKind} {start : ι × ο} {calls : List StreamCall} {turns : List (Turn ι ο)}

/-- The totals are right if all instructions that make calls are executed. -/
theorem Accounts.totals_of_completed (h : Accounts kind start calls turns)
    (hcompleted : ∀ turn ∈ turns, turn.isOutput ∨ turn.isInput → turn.completed) :
    Totals start calls turns :=
  ⟨(h.totals hcompleted).1, h.writes, (h.totals hcompleted).2, h.reads⟩

theorem accounts_nil (kind : CellKind) (start : ι × ο) : Accounts kind start [] [] where
  joined := .nil
  writes := rfl
  reads := rfl
  flushes := .nil
  stored := rfl
  received := .nil
  input := by simp
  smooth := by simp
  totals _ := ⟨rfl, rfl⟩

/-- One more sound turn is accounted for by its own calls. -/
theorem Accounts.snoc (h : Accounts kind start calls turns) {turn : Turn ι ο}
    (hsound : turn.Sound kind) (hfinds : turn.before.streams = replay calls start) :
    Accounts kind start (calls ++ turn.calls) (turns ++ [turn]) := by
  -- the turn makes its calls on the streams that the calls before it have left
  have hexchanges : exchanges (calls ++ turn.calls) start =
      exchanges calls start ++ turn.exchanges := by
    rw [exchanges_append, ← hfinds]
    rfl
  refine ⟨?_, ?_, ?_, ?_, ?_, ?_, ?_, ?_, ?_⟩
  · have hlast : replay (calls ++ turn.calls) start = turn.after.streams := by
      rw [replay_append, ← hfinds, hsound.streams]
    rw [hlast]
    exact h.joined.snoc turn hfinds
  · rw [List.countP_append, List.countP_append, h.writes, turn.countP_isWrite_calls]
  · rw [List.count_append, List.countP_append, h.reads, turn.count_read_calls]
  · rw [hexchanges]
    exact h.flushes.append turn.flushed_exchanges
  · rw [hexchanges, List.filterMap_append, List.filterMap_append, h.stored, turn.stored_exchanges]
  · rw [hexchanges, List.filterMap_append, List.filter_append]
    exact List.rel_append h.received hsound.received_exchanges
  · intro other hother hop
    rcases List.mem_append.mp hother with hother | hother
    · exact h.input other hother hop
    · obtain rfl := List.mem_singleton.mp hother
      exact hsound.input_eq hop
  · rw [hexchanges]
    intro hsucceeded other hother hasks
    rcases List.mem_append.mp hother with hother | hother
    · exact h.smooth (fun exchange hexchange =>
        hsucceeded exchange (List.mem_append_left _ hexchange)) other hother hasks
    · obtain rfl := List.mem_singleton.mp hother
      exact (hsound.completed hasks).mpr fun exchange hexchange =>
        hsucceeded exchange (List.mem_append_right _ hexchange)
  · intro hcompleted
    obtain ⟨hstored, hflushes⟩ := h.totals fun other hother =>
      hcompleted other (List.mem_append_left _ hother)
    obtain ⟨hstored', hflushes'⟩ := hsound.totals
      (hcompleted turn (List.mem_append_right _ (List.mem_singleton_self turn)))
    rw [hexchanges, List.filterMap_append, List.length_append, List.count_append,
      List.countP_append, hstored, hstored', hflushes, hflushes']
    exact ⟨rfl, rfl⟩

end Rows

/-! ## Machines -/

namespace Machine

variable [InputStream ι] [OutputStream ο]

/-- The turn that the next step of a machine is. -/
def turn (machine : Machine) (console : Console ι ο) : Turn ι ο where
  op := machine.next?.map Linked.op
  before := machine.world console
  after := (machine.step console).machine.world (machine.step console).console
  completed := (machine.step console).reply = .advanced

/-- The turns that `count` steps are, each of them made whatever the one before came to. -/
def turns (count : Nat) (machine : Machine) (console : Console ι ο) : List (Turn ι ο) :=
  match count with
  | 0 => []
  | count + 1 =>
    let before := machine.steps count console
    machine.turns count console ++ [before.machine.turn before.console]

variable {source : Program} {machine : Machine} {instruction : Instruction}
  {console : Console ι ο}

/-- An output instruction is executed if its byte is written. -/
theorem reply_step_of_output (hnext : machine.next? = some (.plain instruction))
    (hop : instruction.op = .output) :
    (machine.step console).reply = .advanced ↔
      (OutputStream.writeByte (machine.tape.current % 256) console.output).1 = .ok () := by
  have hoperation : instruction.op = Primitive.output.op := hop
  cases hwrite : OutputStream.writeByte (machine.tape.current % 256) console.output with
  | mk result after =>
    cases result with
    | ok =>
      have heffect : Primitive.output.Effect machine.rules instruction (machine.world console) none
        _ := .output hwrite
      simp [step_of_effect hnext hoperation heffect]
    | error failure =>
      cases hblamed : failure.kind.isOutputError with
      | true =>
        have heffect : Primitive.output.Effect machine.rules instruction (machine.world console)
          (some _) _ := .outputFault hwrite hblamed
        simp [step_of_effect_raised hnext hoperation heffect]
      | false =>
        have heffect : Primitive.output.Effect machine.rules instruction (machine.world console)
          (some _) _ := .outputFailure hwrite hblamed
        simp [step_of_effect_raised hnext hoperation heffect]

/-- An input instruction stores the byte that is read. -/
theorem step_of_readByte {byte : UInt8} {after : ι}
    (hnext : machine.next? = some (.plain instruction)) (hop : instruction.op = .input)
    (hread : InputStream.readByte console.input = (.ok byte, after)) :
    (machine.step console).reply = .advanced ∧
      (machine.step console).machine.tape =
        machine.tape.write (machine.cell.fromByte byte.toNat) := by
  have hoperation : instruction.op = Primitive.input.op := hop
  have heffect : Primitive.input.Effect machine.rules instruction (machine.world console) none _ :=
    .input hread
  rw [step_of_effect hnext hoperation heffect]
  exact ⟨rfl, rfl⟩

/-- An input instruction is executed if a byte is read. -/
theorem reply_step_of_input (hnext : machine.next? = some (.plain instruction))
    (hop : instruction.op = .input) :
    (machine.step console).reply = .advanced ↔
      ∃ byte, (InputStream.readByte console.input).1 = .ok byte := by
  have hoperation : instruction.op = Primitive.input.op := hop
  cases hread : InputStream.readByte console.input with
  | mk result after =>
    cases result with
    | ok byte => simp [(step_of_readByte hnext hop hread).1]
    | error failure =>
      cases hblamed : failure.kind.isInputError with
      | true =>
        have heffect : Primitive.input.Effect machine.rules instruction (machine.world console)
          (some _) _ := .inputFault hread hblamed
        simp [step_of_effect_raised hnext hoperation heffect]
      | false =>
        have heffect : Primitive.input.Effect machine.rules instruction (machine.world console)
          (some _) _ := .inputFailure hread hblamed
        simp [step_of_effect_raised hnext hoperation heffect]

/-- An instruction that makes calls is no bracket, so it stands without a link. -/
theorem exists_plain_of_op (hpaired : Paired source machine.program) {op : Op}
    (h : machine.next?.map Linked.op = some op) (hs : op ≠ .loopStart) (he : op ≠ .loopEnd) :
    ∃ instruction, machine.next? = some (.plain instruction) ∧ instruction.op = op := by
  obtain ⟨entry, hentry, rfl⟩ := Option.map_eq_some_iff.mp h
  obtain ⟨instruction, rfl⟩ := (hpaired.plain entry (Array.mem_of_getElem? hentry)).mpr ⟨hs, he⟩
  exact ⟨instruction, hentry, rfl⟩

/-- The calls of a turn are those of the step. -/
theorem calls_turn (hpaired : Paired source machine.program) (console : Console ι ο) :
    (machine.turn console).calls = machine.stepCalls console := by
  unfold Turn.calls stepCalls
  cases hnext : machine.next? with
  | none => simp [turn, hnext]
  | some entry =>
    have hmem := Array.mem_of_getElem? hnext
    cases entry with
    | plain instruction =>
      simp only [turn, hnext, Option.map_some, Linked.op, Linked.instruction]
      cases instruction.op <;> rfl
    | opener instruction target partner =>
      have hop := (hpaired.opener _ hmem).mp ⟨_, _, _, rfl⟩
      simp [turn, hnext, hop]
    | closer instruction target partner =>
      have hop := (hpaired.closer _ hmem).mp ⟨_, _, _, rfl⟩
      simp [turn, hnext, hop]

/-- A step is a sound turn. -/
theorem sound_turn (hpaired : Paired source machine.program)
    (hhead : machine.tape.head < machine.tape.size) (console : Console ι ο) :
    (machine.turn console).Sound machine.cell where
  streams := by
    rw [calls_turn hpaired]
    exact machine.streams_step console
  completed := by
    rintro (hasks | hasks)
    · obtain ⟨instruction, hnext, hop⟩ :=
        exists_plain_of_op hpaired (of_decide_eq_true hasks) (by simp) (by simp)
      rw [Turn.succeeded_of_isOutput hasks]
      exact decide_eq_true_iff.trans (reply_step_of_output hnext hop)
    · obtain ⟨instruction, hnext, hop⟩ :=
        exists_plain_of_op hpaired (of_decide_eq_true hasks) (by simp) (by simp)
      rw [Turn.succeeded_of_isInput hasks]
      exact decide_eq_true_iff.trans (reply_step_of_input hnext hop)
  stores := by
    intro hasks byte rest hread
    obtain ⟨instruction, hnext, hop⟩ :=
      exists_plain_of_op hpaired (of_decide_eq_true hasks) (by simp) (by simp)
    have htape := (step_of_readByte hnext hop (InputStream.readByte_of_read hread)).2
    show machine.tape.Stores machine.cell byte (machine.step console).machine.tape
    rw [htape]
    exact Tape.stores_write hhead machine.cell byte

theorem evolves_steps (count : Nat) (machine : Machine) (console : Console ι ο) :
    machine.Evolves [] (machine.steps count console).machine := by
  induction count with
  | zero => exact .refl
  | succ count ih => exact .step _ ih

/-- The steps of a machine are accounted for by its turns. -/
theorem accounts_turns {kinds : List CellKind} (hpaired : Paired source machine.program)
    (hbounds : machine.InBounds kinds) (console : Console ι ο) (count : Nat) :
    Accounts machine.cell console.streams (machine.stepsCalls count console)
      (machine.turns count console) := by
  induction count with
  | zero => exact accounts_nil _ _
  | succ count ih =>
    have hhead := ((hbounds.evolves (machine.evolves_steps count console)).1).head
    have hsound := sound_turn (by simpa using hpaired) hhead (machine.steps count console).console
    rw [cell_steps] at hsound
    rw [stepsCalls_succ, turns, ← calls_turn (by simpa using hpaired)]
    exact ih.snoc hsound (machine.streams_steps count console)

theorem exists_step_of_mem_turns {count : Nat} {turn : Turn ι ο}
    (h : turn ∈ machine.turns count console) :
    ∃ step < count, turn =
      (machine.steps step console).machine.turn (machine.steps step console).console := by
  induction count with
  | zero => cases h
  | succ count ih =>
    rcases List.mem_append.mp h with h | h
    · obtain ⟨step, hstep, rfl⟩ := ih h
      exact ⟨step, Nat.lt_succ_of_lt hstep, rfl⟩
    · exact ⟨count, Nat.lt_succ_self count, List.mem_singleton.mp h⟩

/-- If steps end with the program and not before, all instructions that make calls are executed. -/
theorem completed_of_finished {count : Nat}
    (hearlier : ∀ earlier < count, (machine.steps earlier console).reply = .advanced)
    (hfinished : (machine.steps count console).reply = .finished) :
    ∀ turn ∈ machine.turns count console, turn.isOutput ∨ turn.isInput → turn.completed := by
  intro turn hturn hasks
  obtain ⟨step, hstep, rfl⟩ := exists_step_of_mem_turns hturn
  apply decide_eq_true
  by_cases hlast : step + 1 = count
  · -- the last step found no instruction
    subst hlast
    have hnone := reply_step_eq_finished_iff.mp hfinished
    simp [Turn.isOutput, Turn.isInput, Machine.turn, hnone] at hasks
  · exact hearlier (step + 1) (by omega)

/-- The calls of a machine are accounted for, however far it is stepped. -/
structure Accounted (machine : Machine) (console : Console ι ο) : Prop where
  /-- After every step the calls are accounted for by the turns. -/
  steps : ∀ count, Accounts machine.cell console.streams (machine.stepsCalls count console)
    (machine.turns count console)
  /-- As long as all calls succeed, the totals are right. -/
  smooth : ∀ count,
    (∀ exchange ∈ exchanges (machine.stepsCalls count console) console.streams,
      exchange.succeeded) →
    Totals console.streams (machine.stepsCalls count console) (machine.turns count console)
  /-- A run consists of steps; if it ends with the program, the totals are right. -/
  run : ∀ limit, ∃ count ≤ limit, machine.run limit console = machine.steps count console ∧
    machine.calls limit console = machine.stepsCalls count console ∧
    ((machine.run limit console).reply = .finished →
      Totals console.streams (machine.calls limit console) (machine.turns count console))

/-- Whatever the streams reply, the calls of a machine that is in bounds are accounted for. -/
theorem InBounds.accounted {kinds : List CellKind} (hbounds : machine.InBounds kinds)
    (hpaired : Paired source machine.program) (console : Console ι ο) :
    machine.Accounted console := by
  have haccounts (count : Nat) := accounts_turns hpaired hbounds console count
  refine ⟨haccounts, ?_, ?_⟩
  · intro count hsucceeded
    exact (haccounts count).totals_of_completed ((haccounts count).smooth hsucceeded)
  · intro limit
    obtain ⟨count, hle, hrun, hcalls, hearlier, -⟩ := exists_steps_eq_run limit machine console
    refine ⟨count, hle, hrun, hcalls, ?_⟩
    intro hfinished
    rw [hrun] at hfinished
    rw [hcalls]
    exact (haccounts count).totals_of_completed (completed_of_finished hearlier hfinished)

end Machine

end Brainfuck
