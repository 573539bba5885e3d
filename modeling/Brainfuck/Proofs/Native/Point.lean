import Brainfuck.Proofs.Native.Execution

/-! # Native runs, an instruction at a time

A compiled function, seen at the points at which it comes to the code of an instruction. From a
point it goes to the next one, or it returns, and on the way it makes the calls of the instruction.
Both ends of a loop test the current cell, so a loop end leads into the body again without passing
the loop start.

Main definitions: `Point`, `Point.Advances`. Main statement: the compiled function goes from point
to point as the rules say, and all instructions on the way are safe
(`exists_course_of_advances`). -/

namespace Brainfuck.Native

open Ir Build

/-! ## Points -/

/-- A point of a native run: the instruction it comes to, the data pointer, the cells and the
world. -/
structure Point (σ : Type) where
  /-- The index of the instruction. -/
  index : Nat
  /-- The data pointer. -/
  head : Nat
  /-- The cells. -/
  tape : Array UInt8
  /-- The world. -/
  host : σ

/-- Where a point leads. -/
inductive Arrival (σ : Type) where
  /-- To another point. -/
  | point (next : Point σ)
  /-- To the end of the function. -/
  | returned (word : Int) (tape : Array UInt8) (host : σ)

namespace Point

variable {σ : Type}

/-- Where the instruction at a point leads, and the calls that it makes, each with the world in
which it is made. -/
inductive Advances [Host σ] (program : LinkedProgram) (point : Point σ) :
    List (HostCall × σ) → Arrival σ → Prop where
  /-- The program has ended. -/
  | finished (ended : program.instructions[point.index]? = none) :
      Advances program point [] (.returned noFault point.tape point.host)
  /-- The next cell becomes the current one. -/
  | right {instruction : Instruction}
      (entry : program.instructions[point.index]? = some (.plain instruction))
      (op : instruction.op = .right) (inside : point.head + 1 < point.tape.size) :
      Advances program point []
        (.point { point with index := point.index + 1, head := point.head + 1 })
  /-- There is no next cell. -/
  | tooHigh {instruction : Instruction}
      (entry : program.instructions[point.index]? = some (.plain instruction))
      (op : instruction.op = .right) (last : ¬ point.head + 1 < point.tape.size) :
      Advances program point [] (.returned point.index point.tape point.host)
  /-- The previous cell becomes the current one. -/
  | left {instruction : Instruction}
      (entry : program.instructions[point.index]? = some (.plain instruction))
      (op : instruction.op = .left) (inside : point.head ≠ 0) :
      Advances program point []
        (.point { point with index := point.index + 1, head := point.head - 1 })
  /-- There is no previous cell. -/
  | tooLow {instruction : Instruction}
      (entry : program.instructions[point.index]? = some (.plain instruction))
      (op : instruction.op = .left) (first : point.head = 0) :
      Advances program point [] (.returned point.index point.tape point.host)
  /-- One is added to the current cell. -/
  | add {instruction : Instruction} {byte : UInt8}
      (entry : program.instructions[point.index]? = some (.plain instruction))
      (op : instruction.op = .add) (cell : point.tape[point.head]? = some byte) :
      Advances program point []
        (.point { point with
          index := point.index + 1, tape := point.tape.setIfInBounds point.head (byte + 1) })
  /-- One is subtracted from the current cell. -/
  | sub {instruction : Instruction} {byte : UInt8}
      (entry : program.instructions[point.index]? = some (.plain instruction))
      (op : instruction.op = .sub) (cell : point.tape[point.head]? = some byte) :
      Advances program point []
        (.point { point with
          index := point.index + 1, tape := point.tape.setIfInBounds point.head (byte - 1) })
  /-- The current cell is put, and the reply is zero. -/
  | output {instruction : Instruction} {byte : UInt8}
      (entry : program.instructions[point.index]? = some (.plain instruction))
      (op : instruction.op = .output) (cell : point.tape[point.head]? = some byte)
      (accepted : Width.reply.residue (Host.putByte byte point.host).1 = 0) :
      Advances program point [(.put byte, point.host)]
        (.point { point with
          index := point.index + 1, host := (Host.putByte byte point.host).2 })
  /-- The current cell is put, and the reply is not zero. -/
  | outputFault {instruction : Instruction} {byte : UInt8}
      (entry : program.instructions[point.index]? = some (.plain instruction))
      (op : instruction.op = .output) (cell : point.tape[point.head]? = some byte)
      (refused : Width.reply.residue (Host.putByte byte point.host).1 ≠ 0) :
      Advances program point [(.put byte, point.host)]
        (.returned point.index point.tape (Host.putByte byte point.host).2)
  /-- A byte is got, and the reply is not negative. -/
  | input {instruction : Instruction}
      (entry : program.instructions[point.index]? = some (.plain instruction))
      (op : instruction.op = .input) (inside : point.head < point.tape.size)
      (given : 0 ≤ Width.reply.signed (Width.reply.residue (Host.getByte point.host).1)) :
      Advances program point [(.get, point.host)]
        (.point { point with
          index := point.index + 1
          tape := point.tape.setIfInBounds point.head
            (UInt8.ofNat (Width.reply.residue (Host.getByte point.host).1 % Width.byte.modulus))
          host := (Host.getByte point.host).2 })
  /-- A byte is got, and the reply is negative. -/
  | inputFault {instruction : Instruction}
      (entry : program.instructions[point.index]? = some (.plain instruction))
      (op : instruction.op = .input)
      (missing : ¬ 0 ≤ Width.reply.signed (Width.reply.residue (Host.getByte point.host).1)) :
      Advances program point [(.get, point.host)]
        (.returned point.index point.tape (Host.getByte point.host).2)
  /-- A loop is skipped. -/
  | skipped {instruction partner : Instruction} {closer : Nat}
      (entry : program.instructions[point.index]? = some (.opener instruction closer partner))
      (cell : point.tape[point.head]? = some 0) :
      Advances program point [] (.point { point with index := closer + 1 })
  /-- A loop is entered. -/
  | entered {instruction partner : Instruction} {closer : Nat} {byte : UInt8}
      (entry : program.instructions[point.index]? = some (.opener instruction closer partner))
      (cell : point.tape[point.head]? = some byte) (nonzero : byte ≠ 0) :
      Advances program point [] (.point { point with index := point.index + 1 })
  /-- A loop ends. -/
  | ended {instruction partner : Instruction} {opener : Nat}
      (entry : program.instructions[point.index]? = some (.closer instruction opener partner))
      (cell : point.tape[point.head]? = some 0) :
      Advances program point [] (.point { point with index := point.index + 1 })
  /-- A loop takes another turn. -/
  | again {instruction partner : Instruction} {opener : Nat} {byte : UInt8}
      (entry : program.instructions[point.index]? = some (.closer instruction opener partner))
      (cell : point.tape[point.head]? = some byte) (nonzero : byte ≠ 0) :
      Advances program point [] (.point { point with index := opener + 1 })

/-- The data pointer is inside a tape of `size` cells. -/
structure Inside (size : Nat) (point : Point σ) : Prop where
  /-- The number of cells. -/
  size_eq : point.tape.size = size
  /-- The data pointer is the index of a cell. -/
  head_lt : point.head < size

theorem Inside.inTape {size : Nat} {point : Point σ} (h : point.Inside size) :
    InTape size point.head point.tape :=
  ⟨h.size_eq, h.head_lt⟩

theorem Inside.exists_cell {size : Nat} {point : Point σ} (h : point.Inside size) :
    ∃ byte, point.tape[point.head]? = some byte :=
  ⟨_, Array.getElem?_eq_getElem (by rw [h.size_eq]; exact h.head_lt)⟩

variable [Host σ] {program : LinkedProgram} {point next : Point σ} {made : List (HostCall × σ)}
  {size : Nat}

/-- The data pointer stays inside the tape. -/
theorem Inside.advances (hinside : point.Inside size)
    (h : point.Advances program made (.point next)) : next.Inside size := by
  obtain ⟨hsize, hhead⟩ := hinside
  cases h with
  | right _ _ inside => exact ⟨hsize, by rw [← hsize]; exact inside⟩
  | left => exact ⟨hsize, Nat.lt_of_le_of_lt (Nat.sub_le _ _) hhead⟩
  | add => exact ⟨(Array.size_setIfInBounds ..).trans hsize, hhead⟩
  | sub => exact ⟨(Array.size_setIfInBounds ..).trans hsize, hhead⟩
  | input => exact ⟨(Array.size_setIfInBounds ..).trans hsize, hhead⟩
  | _ => exact ⟨hsize, hhead⟩

/-- Every point of a linked program leads somewhere. -/
theorem Inside.exists_advances (hinside : point.Inside size) {source : Program}
    (hlink : source.link = .ok program) :
    ∃ made arrival, point.Advances program made arrival := by
  obtain ⟨byte, cell⟩ := hinside.exists_cell
  cases entry : program.instructions[point.index]? with
  | none => exact ⟨_, _, .finished entry⟩
  | some linked =>
    cases linked with
    | opener instruction closer partner =>
      by_cases zero : byte = 0
      · subst zero
        exact ⟨_, _, .skipped entry cell⟩
      · exact ⟨_, _, .entered entry cell zero⟩
    | closer instruction opener partner =>
      by_cases zero : byte = 0
      · subst zero
        exact ⟨_, _, .ended entry cell⟩
      · exact ⟨_, _, .again entry cell zero⟩
    | plain instruction =>
      -- linking has left no bracket without its partner
      obtain ⟨hs, he⟩ := ((Program.paired_of_link_eq_ok hlink).plain _
        (Array.mem_of_getElem? entry)).mp ⟨instruction, rfl⟩
      cases op : instruction.op with
      | right =>
        by_cases inside : point.head + 1 < point.tape.size
        · exact ⟨_, _, .right entry op inside⟩
        · exact ⟨_, _, .tooHigh entry op inside⟩
      | left =>
        by_cases first : point.head = 0
        · exact ⟨_, _, .tooLow entry op first⟩
        · exact ⟨_, _, .left entry op first⟩
      | add => exact ⟨_, _, .add entry op cell⟩
      | sub => exact ⟨_, _, .sub entry op cell⟩
      | output =>
        by_cases accepted : Width.reply.residue (Host.putByte byte point.host).1 = 0
        · exact ⟨_, _, .output entry op cell accepted⟩
        · exact ⟨_, _, .outputFault entry op cell accepted⟩
      | input =>
        by_cases given : 0 ≤ Width.reply.signed (Width.reply.residue (Host.getByte point.host).1)
        · exact ⟨_, _, .input entry op (by rw [hinside.size_eq]; exact hinside.head_lt) given⟩
        · exact ⟨_, _, .inputFault entry op given⟩
      | loopStart => exact absurd op hs
      | loopEnd => exact absurd op he

end Point

/-! ## Arithmetic on the data pointer and on cells -/

/-- The residue of an integer that fits a word is the integer. -/
theorem residue_word {value : Nat} (h : value < Nat.pow 2 64) :
    Width.word.residue value = value := by
  have hvalue : (value : Int) < (Width.word.modulus : Int) := Int.ofNat_lt.mpr h
  rw [Width.residue, Int.emod_eq_of_lt (Int.natCast_nonneg value) hvalue, Int.toNat_natCast]

/-- The limit of the data pointer is compared exactly. -/
theorem holds_unsignedLess_iff {head size : Nat} (hhead : head < size)
    (hsize : size < Nat.pow 2 64) :
    Comparison.unsignedLess.holds .word head (Width.word.residue (size - 1)) = true ↔
      head + 1 < size := by
  have hlimit : ((size : Int) - 1) = ((size - 1 : Nat) : Int) := by omega
  rw [hlimit, residue_word (by omega)]
  simp only [Comparison.holds, decide_eq_true_eq]
  omega

theorem apply_add_word {head : Nat} (h : head + 1 < Nat.pow 2 64) :
    Arithmetic.add.apply .word head (Width.word.residue 1) = head + 1 :=
  Nat.mod_eq_of_lt h

theorem apply_sub_word {head : Nat} (h : head ≠ 0) (hhead : head < Nat.pow 2 64) :
    Arithmetic.sub.apply .word head (Width.word.residue 1) = head - 1 := by
  -- one is subtracted by adding the largest word
  show (head + (Nat.pow 2 64 - 1)) % Nat.pow 2 64 = head - 1
  have hsum : head + (Nat.pow 2 64 - 1) = head - 1 + Nat.pow 2 64 := by
    have : 0 < Nat.pow 2 64 := by decide
    omega
  rw [hsum, Nat.add_mod_right, Nat.mod_eq_of_lt (by omega)]

theorem ofNat_apply_add_byte (byte : UInt8) :
    UInt8.ofNat (Arithmetic.add.apply .byte byte.toNat (Width.byte.residue 1)) = byte + 1 := by
  apply UInt8.toNat_inj.mp
  show _ % 256 = _
  rw [UInt8.toNat_add]
  show (byte.toNat + 1) % 256 % 256 = (byte.toNat + 1) % 256
  omega

theorem ofNat_apply_sub_byte (byte : UInt8) :
    UInt8.ofNat (Arithmetic.sub.apply .byte byte.toNat (Width.byte.residue 1)) = byte - 1 := by
  apply UInt8.toNat_inj.mp
  show _ % 256 = _
  rw [UInt8.toNat_sub]
  show (byte.toNat + 255) % 256 % 256 = (256 - 1 + byte.toNat) % 256
  omega

theorem holds_equal_byte_of_ne {byte : UInt8} (h : byte ≠ 0) :
    Comparison.equal.holds .byte byte.toNat 0 = false :=
  decide_eq_false fun heq => h (UInt8.toNat_inj.mp heq)

theorem holds_notEqual_byte_of_ne {byte : UInt8} (h : byte ≠ 0) :
    Comparison.notEqual.holds .byte byte.toNat 0 = true :=
  decide_eq_true fun heq => h (UInt8.toNat_inj.mp heq)

/-! ## The compiled function goes from point to point -/

/-- The state of the compiled function at a point. -/
def Point.state {σ : Type} (code : Nat → List Instr) (values : Std.HashMap Name Value)
    (point : Point σ) : State σ :=
  ⟨code point.index, values, point.head, point.tape, point.host⟩

/-- The compiled function comes to where a point leads. -/
def Arrival.ComesTo {σ : Type} (code : Nat → List Instr) (arrival : Arrival σ) (last : Step σ) :
    Prop :=
  match arrival with
  | .point next => ∃ values, Framed values ∧ last = .running (next.state code values)
  | .returned word tape host => last = .returned word tape host

/-- The next instruction of a state was emitted for the instruction of the program at an index. -/
def MadeBy {σ : Type} (program : LinkedProgram) (size : Int) (index : Nat) (caller : State σ) :
    Prop :=
  ∃ instr rest, caller.code = instr :: rest ∧ Emits program size index instr

section Function

variable {σ : Type} [Host σ] {source : Program} {program : LinkedProgram} {size : Nat}
  {point : Point σ} {made : List (HostCall × σ)} {values : Std.HashMap Name Value}

/-- The compiled function takes a safe course from every point to where the rules lead. The calls on
the way are those of the rules, and they are made by the instruction at the point. -/
theorem exists_course_of_advances (hlink : source.link = .ok program) (hsize : size < Nat.pow 2 64)
    (hinside : point.Inside size) (hframed : Framed values) {arrival : Arrival σ}
    (h : point.Advances program made arrival) :
    ∃ calling last, State.Course (compile program size).function size
        (point.state (codeFrom program size) values) calling last ∧
      arrival.ComesTo (codeFrom program size) last ∧ State.made calling = made ∧
      ∀ caller ∈ calling, MadeBy program size point.index caller := by
  have hin := hinside.inTape
  have hhead := hinside.head_lt
  have himplements {entry : Linked} (hentry : program.instructions[point.index]? = some entry) :
      Implements (compile program size).function size (codeFrom program size) point.index entry :=
    implements_compile hlink hentry
  cases h with
  | finished ended =>
    obtain ⟨others, hcode⟩ := exists_codeFrom_of_size_le (Array.getElem?_eq_none_iff.mp ended)
    rw [Point.state, hcode]
    exact ⟨[], _, State.course_ret hin, rfl, rfl, by simp⟩
  | right entry op inside =>
    -- the pointer is less than the last index, and one more than it still fits a word
    have hcode := himplements entry
    simp only [Implements, op] at hcode
    rw [hinside.size_eq] at inside
    obtain ⟨values', hframed', hcourse⟩ := hcode.exists_course hframed hin (by simp)
      ((holds_unsignedLess_iff hhead hsize).mpr inside) (apply_add_word (by omega)) rfl inside
      point.host
    exact ⟨[], _, hcourse, ⟨values', hframed', rfl⟩, rfl, by simp⟩
  | tooHigh entry op last =>
    have hcode := himplements entry
    simp only [Implements, op] at hcode
    rw [hinside.size_eq, ← holds_unsignedLess_iff hhead hsize, Bool.not_eq_true] at last
    exact ⟨[], _, hcode.course_returned hframed hin last point.host, rfl, rfl, by simp⟩
  | left entry op inside =>
    have hcode := himplements entry
    simp only [Implements, op] at hcode
    have hexact : ((point.head - 1 : Nat) : Int) = Arithmetic.sub.exact point.head 1 := by
      show _ = (point.head : Int) - 1
      omega
    obtain ⟨values', hframed', hcourse⟩ := hcode.exists_course hframed hin (by simp)
      (decide_eq_true inside) (apply_sub_word inside (by omega)) hexact (by omega) point.host
    exact ⟨[], _, hcourse, ⟨values', hframed', rfl⟩, rfl, by simp⟩
  | tooLow entry op first =>
    have hcode := himplements entry
    simp only [Implements, op] at hcode
    exact ⟨[], _, hcode.course_returned hframed hin (decide_eq_false (not_not_intro first))
      point.host, rfl, rfl, by simp⟩
  | add entry op cell =>
    have hcode := himplements entry
    simp only [Implements, op] at hcode
    obtain ⟨values', hframed', hcourse⟩ := hcode.exists_course hframed hin (by simp) (by simp) cell
      (compile program size).function point.host
    rw [ofNat_apply_add_byte] at hcourse
    exact ⟨[], _, hcourse, ⟨values', hframed', rfl⟩, rfl, by simp⟩
  | sub entry op cell =>
    have hcode := himplements entry
    simp only [Implements, op] at hcode
    obtain ⟨values', hframed', hcourse⟩ := hcode.exists_course hframed hin (by simp) (by simp) cell
      (compile program size).function point.host
    rw [ofNat_apply_sub_byte] at hcourse
    exact ⟨[], _, hcourse, ⟨values', hframed', rfl⟩, rfl, by simp⟩
  | output entry op cell accepted =>
    have hcode := himplements entry
    simp only [Implements, op] at hcode
    obtain ⟨caller, hasks, hgoes, -⟩ := hcode.exists_course hframed hin cell point.host
    obtain ⟨values', hframed', hcourse⟩ := hgoes accepted
    refine ⟨[caller], _, hcourse, ⟨values', hframed', rfl⟩, hasks.made, ?_⟩
    simpa [MadeBy, hasks.code] using exists_drop_codeFrom_of_output entry op
  | outputFault entry op cell refused =>
    have hcode := himplements entry
    simp only [Implements, op] at hcode
    obtain ⟨caller, hasks, -, hreturns⟩ := hcode.exists_course hframed hin cell point.host
    refine ⟨[caller], _, hreturns refused, rfl, hasks.made, ?_⟩
    simpa [MadeBy, hasks.code] using exists_drop_codeFrom_of_output entry op
  | input entry op inside given =>
    have hcode := himplements entry
    simp only [Implements, op] at hcode
    obtain ⟨caller, hasks, hgoes, -⟩ := hcode.exists_course hframed hin point.host
    obtain ⟨values', hframed', hcourse⟩ := hgoes given
    refine ⟨[caller], _, hcourse, ⟨values', hframed', rfl⟩, hasks.made, ?_⟩
    simpa [MadeBy, hasks.code] using exists_codeFrom_of_input entry op
  | inputFault entry op missing =>
    have hcode := himplements entry
    simp only [Implements, op] at hcode
    obtain ⟨caller, hasks, -, hreturns⟩ := hcode.exists_course hframed hin point.host
    refine ⟨[caller], _, hreturns missing, rfl, hasks.made, ?_⟩
    simpa [MadeBy, hasks.code] using exists_codeFrom_of_input entry op
  | skipped entry cell =>
    obtain ⟨values', hframed', hcourse⟩ :=
      (himplements entry).exists_course hframed hin cell point.host
    exact ⟨[], _, hcourse, ⟨values', hframed', rfl⟩, rfl, by simp⟩
  | entered entry cell nonzero =>
    obtain ⟨values', hframed', hcourse⟩ :=
      (himplements entry).exists_course hframed hin cell point.host
    rw [holds_equal_byte_of_ne nonzero] at hcourse
    exact ⟨[], _, hcourse, ⟨values', hframed', rfl⟩, rfl, by simp⟩
  | ended entry cell =>
    obtain ⟨values', hframed', hcourse⟩ :=
      (himplements entry).exists_course hframed hin cell point.host
    exact ⟨[], _, hcourse, ⟨values', hframed', rfl⟩, rfl, by simp⟩
  | again entry cell nonzero =>
    obtain ⟨values', hframed', hcourse⟩ :=
      (himplements entry).exists_course hframed hin cell point.host
    rw [holds_notEqual_byte_of_ne nonzero] at hcourse
    exact ⟨[], _, hcourse, ⟨values', hframed', rfl⟩, rfl, by simp⟩

/-- Where a point leads to another, the compiled function goes there and makes the same calls. -/
theorem exists_leads_of_advances (hlink : source.link = .ok program) (hsize : size < Nat.pow 2 64)
    (hinside : point.Inside size) (hframed : Framed values) {next : Point σ}
    (h : point.Advances program made (.point next)) :
    ∃ values', Framed values' ∧
      State.Leads (compile program size).function (point.state (codeFrom program size) values) made
        (next.state (codeFrom program size) values') := by
  obtain ⟨calling, _, hcourse, ⟨values', hframed', rfl⟩, hmade, -⟩ :=
    exists_course_of_advances hlink hsize hinside hframed h
  exact ⟨values', hframed', hmade ▸ hcourse.leads⟩

/-- Where a point leads to the end, the compiled function returns and makes the same calls. -/
theorem returns_of_advances (hlink : source.link = .ok program) (hsize : size < Nat.pow 2 64)
    (hinside : point.Inside size) (hframed : Framed values) {word : Int} {tape : Array UInt8}
    {host : σ} (h : point.Advances program made (.returned word tape host)) :
    State.Returns (compile program size).function (point.state (codeFrom program size) values) made
      word tape host := by
  obtain ⟨calling, _, hcourse, rfl, hmade, -⟩ :=
    exists_course_of_advances hlink hsize hinside hframed h
  exact hmade ▸ hcourse.returns

/-- The compiled function begins with a safe course to the first instruction, with the data pointer
at the first cell. -/
theorem exists_course_start (program : LinkedProgram) {tape : Array UInt8}
    (htape : tape.size = size) (hsize : 0 < size) (host : σ) :
    ∃ values, Framed values ∧
      State.Course (compile program size).function size
        ((compile program size).function.start tape host) []
        (.running ((⟨0, 0, tape, host⟩ : Point σ).state (codeFrom program size) values)) := by
  obtain ⟨label, hblock⟩ := hasBlock_zero_compile program size
  have hframed : Framed ((({} : Std.HashMap Name Value).insert frame.tape (.cellAddress 0)).insert
      frame.slot .slotAddress) := by
    constructor
    · rw [Std.HashMap.getElem?_insert, if_neg (by simp [frame]), Std.HashMap.getElem?_insert_self]
    · rw [Std.HashMap.getElem?_insert_self]
  refine ⟨_, hframed, ?_⟩
  simp only [Function.start, hblock, parameter_compile]
  have hin : InTape size 0 tape := ⟨htape, hsize⟩
  exact (State.course_reserve hin).trans (State.course_store_literal hin hframed.slot)

end Function

end Brainfuck.Native
