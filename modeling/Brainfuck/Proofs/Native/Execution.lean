import Brainfuck.Proofs.Ir.Course
import Brainfuck.Proofs.Native.Compiled

/-! # Running compiled code

What the code of each kind of instruction does when it is run, from a state in which the tape and
the slot are known by their names, as they are in every compiled function, and the data pointer is
the index of a cell. All instructions on the way are safe.

Main definitions: `Framed`, `Asks`. Main statements: one for each kind of code, such as
`MoveCode.exists_course` and `MoveCode.course_returned`. -/

namespace Brainfuck.Native

open Ir Build

/-! ## The names of the tape and of the slot -/

/-- The tape and the slot are known by their names. -/
structure Framed (values : Std.HashMap Name Value) : Prop where
  /-- The parameter is the address of the first cell. -/
  tape : values[frame.tape]? = some (.cellAddress 0)
  /-- The slot has its address. -/
  slot : values[frame.slot]? = some .slotAddress

/-- A name that is neither that of the tape nor that of the slot. -/
def Other (name : Name) : Prop := name.stem ≠ .unnamed ∨ 3 < name.serial

variable {values : Std.HashMap Name Value}

/-- Giving another name its value leaves the tape and the slot known. -/
theorem Framed.insert (h : Framed values) (name : Name) (hname : Other name) (value : Value) :
    Framed (values.insert name value) := by
  have htape : name ≠ frame.tape := by
    rintro rfl
    simp [Other, frame] at hname
  have hslot : name ≠ frame.slot := by
    rintro rfl
    simp [Other, frame] at hname
  constructor
  · rw [Std.HashMap.getElem?_insert, if_neg (by simpa using htape), h.tape]
  · rw [Std.HashMap.getElem?_insert, if_neg (by simpa using hslot), h.slot]

/-- A name keeps its value when another one is given. -/
theorem getElem?_insert_of_stem (values : Std.HashMap Name Value) {stem other : Stem}
    (h : stem ≠ other) (serial serial' : Nat) (value : Value) :
    (values.insert ⟨stem, serial⟩ value)[(⟨other, serial'⟩ : Name)]? =
      values[(⟨other, serial'⟩ : Name)]? := by
  rw [Std.HashMap.getElem?_insert, if_neg]
  simp [h]

/-! ## The code of instructions -/

section Code

variable {σ : Type}

/-- The state is about to make a call: the code that is left, the call and the world. -/
structure Asks (caller : State σ) (code : List Instr) (call : HostCall) (host : σ) : Prop where
  /-- The code that is left begins with the call. -/
  code : caller.code = code
  /-- The call. -/
  call : caller.call? = some call
  /-- The world. -/
  host : caller.host = host

theorem Asks.made {caller : State σ} {code : List Instr} {call : HostCall} {host : σ}
    (h : Asks caller code call host) : State.made [caller] = [(call, host)] := by
  simp [State.made, h.call, h.host]

variable [Host σ] {function : Function} {slot : Nat} {tape : Array UInt8} {host : σ}
  {here next : List Instr} {index size : Nat} (h : Framed values) (hin : InTape size slot tape)
include h hin

/-- The code that reads the current cell gives its address and its value. -/
theorem exists_course_elementCode {byte : UInt8} (hbyte : tape[slot]? = some byte)
    (function : Function) (host : σ) (pointer address element : Nat) (rest : List Instr) :
    ∃ values', Framed values' ∧
      values'[(⟨.elementAddress, address⟩ : Name)]? = some (.cellAddress slot) ∧
      values'[(⟨.element, element⟩ : Name)]? = some (.number byte.toNat) ∧
      State.Course function size
        ⟨elementCode frame pointer address element ++ rest, values, slot, tape, host⟩ []
        (.running ⟨rest, values', slot, tape, host⟩) := by
  have hpointer := h.insert ⟨.pointer, pointer⟩ (.inl (by simp)) (.number slot)
  have haddress := hpointer.insert ⟨.elementAddress, address⟩ (.inl (by simp)) (.cellAddress slot)
  have helement := haddress.insert ⟨.element, element⟩ (.inl (by simp)) (.number byte.toNat)
  refine ⟨_, helement, ?_, Std.HashMap.getElem?_insert_self, ?_⟩
  · rw [getElem?_insert_of_stem _ (by simp), Std.HashMap.getElem?_insert_self]
  · exact (State.course_load_word hin h.slot).trans ((State.course_element hin hpointer.tape
      Std.HashMap.getElem?_insert_self).trans
        (State.course_load_byte hin Std.HashMap.getElem?_insert_self hbyte))

section Move

variable {comparison : Comparison} {limit : Int} {stem : Stem} {operation : Arithmetic}

/-- A move that the comparison allows changes the data pointer. -/
theorem MoveCode.exists_course {moved : Nat}
    (hcode : MoveCode function index here next comparison limit stem operation)
    (hstem : stem ≠ .unnamed)
    (hholds : comparison.holds .word slot (Width.word.residue limit) = true)
    (hmoved : operation.apply .word slot (Width.word.residue 1) = moved)
    (hexact : (moved : Int) = operation.exact slot 1) (hlt : moved < size) (host : σ) :
    ∃ values', Framed values' ∧
      State.Course function size ⟨here, values, slot, tape, host⟩ []
        (.running ⟨next, values', moved, tape, host⟩) := by
  obtain ⟨pointer, inBounds, result, proceed, fault, others, others', rfl, hproceed, -⟩ := hcode
  have hpointer := h.insert ⟨.pointer, pointer⟩ (.inl (by simp)) (.number slot)
  have hcompared := hpointer.insert ⟨.inBounds, inBounds⟩ (.inl (by simp))
    (.ofBool (comparison.holds .word slot (Width.word.residue limit)))
  have hresult := hcompared.insert ⟨stem, result⟩ (.inl hstem) (.number moved)
  refine ⟨_, hresult, ?_⟩
  -- the pointer is still known by its name after the comparison
  have hkept := getElem?_insert_of_stem (values.insert ⟨.pointer, pointer⟩ (.number slot))
    (show Stem.inBounds ≠ Stem.pointer by simp) inBounds pointer
    (.ofBool (comparison.holds .word slot (Width.word.residue limit)))
  rw [Std.HashMap.getElem?_insert_self] at hkept
  exact (State.course_load_word hin h.slot).trans
    ((State.course_compare hin Std.HashMap.getElem?_insert_self).trans
      ((State.course_branch hin Std.HashMap.getElem?_insert_self
        (by rw [hholds]; exact hproceed)).trans
          ((State.course_arithmetic_word hin hkept hmoved hexact hlt).trans
            (State.course_store_word hin hresult.slot Std.HashMap.getElem?_insert_self))))

/-- A move that the comparison does not allow returns the index. -/
theorem MoveCode.course_returned
    (hcode : MoveCode function index here next comparison limit stem operation)
    (hholds : comparison.holds .word slot (Width.word.residue limit) = false) (host : σ) :
    State.Course function size ⟨here, values, slot, tape, host⟩ [] (.returned index tape host) := by
  obtain ⟨pointer, inBounds, moved, proceed, fault, others, others', rfl, -, hfault⟩ := hcode
  exact (State.course_load_word hin h.slot).trans
    ((State.course_compare hin Std.HashMap.getElem?_insert_self).trans
      ((State.course_branch hin Std.HashMap.getElem?_insert_self
        (by rw [hholds]; exact hfault)).trans (State.course_ret hin)))

end Move

/-- A change writes the new value of the current cell. -/
theorem ChangeCode.exists_course {stem : Stem} {operation : Arithmetic}
    (hcode : ChangeCode here next stem operation) (hstem : stem ≠ .unnamed)
    (haddress : stem ≠ .elementAddress) {byte : UInt8}
    (hbyte : tape[slot]? = some byte) (function : Function) (host : σ) :
    ∃ values', Framed values' ∧
      State.Course function size ⟨here, values, slot, tape, host⟩ []
        (.running ⟨next, values', slot,
          tape.setIfInBounds slot
            (UInt8.ofNat (operation.apply .byte byte.toNat (Width.byte.residue 1))), host⟩) := by
  obtain ⟨pointer, address, element, changed, rfl⟩ := hcode
  rw [List.append_assoc]
  obtain ⟨read, hread, hreadAddress, hreadElement, hcourse⟩ :=
    exists_course_elementCode h hin hbyte function host pointer address element _
  -- the address is still known by its name after the arithmetic
  have hkept := getElem?_insert_of_stem read haddress changed address
    (.number (operation.apply .byte byte.toNat (Width.byte.residue 1)))
  rw [hreadAddress] at hkept
  refine ⟨_, hread.insert ⟨stem, changed⟩ (.inl hstem)
    (.number (operation.apply .byte byte.toNat (Width.byte.residue 1))), ?_⟩
  exact hcourse.trans ((State.course_arithmetic_byte hin hreadElement).trans
    (State.course_store_byte hin hkept Std.HashMap.getElem?_insert_self))

section Output

variable {byte : UInt8}

/-- An output puts the current cell and goes on if the reply is zero; else it returns the index. The
call is made three instructions into its code. -/
theorem OutputCode.exists_course (hcode : OutputCode function index here next)
    (hbyte : tape[slot]? = some byte) (host : σ) :
    ∃ caller, Asks caller (here.drop 3) (.put byte) host ∧
      (Width.reply.residue (Host.putByte byte host).1 = 0 →
        ∃ values', Framed values' ∧
          State.Course function size ⟨here, values, slot, tape, host⟩ [caller]
            (.running ⟨next, values', slot, tape, (Host.putByte byte host).2⟩)) ∧
      (Width.reply.residue (Host.putByte byte host).1 ≠ 0 →
        State.Course function size ⟨here, values, slot, tape, host⟩ [caller]
          (.returned index tape (Host.putByte byte host).2)) := by
  obtain ⟨pointer, address, element, reply, written, proceed, fault, others, others', hserial, rfl,
    hproceed, hfault⟩ := hcode
  rw [List.append_assoc]
  obtain ⟨read, hread, -, hreadElement, hcourse⟩ :=
    exists_course_elementCode h hin hbyte function host pointer address element _
  have hasked := hread.insert ⟨.unnamed, reply⟩ (.inr hserial)
    (.number (Width.reply.residue (Host.putByte byte host).1))
  have hcompared := hasked.insert ⟨.written, written⟩ (.inl (by simp))
    (.ofBool (Comparison.equal.holds .reply (Width.reply.residue (Host.putByte byte host).1)
      (Width.reply.residue 0)))
  -- up to the branch the code is the same
  have hasks : State.Course function size
      ⟨elementCode frame pointer address element ++
        ([.put ⟨.unnamed, reply⟩ ⟨.element, element⟩,
          .compare ⟨.written, written⟩ .equal .reply ⟨.unnamed, reply⟩ 0,
          .branch ⟨.written, written⟩ proceed fault] ++ others), values, slot, tape, host⟩ _
      (.running ⟨.branch ⟨.written, written⟩ proceed fault :: others, _, slot, tape,
        (Host.putByte byte host).2⟩) :=
    hcourse.trans ((State.course_put hin hreadElement).trans
      (State.course_compare hin Std.HashMap.getElem?_insert_self))
  refine ⟨_, ⟨rfl, ?_, rfl⟩, fun hreply => ⟨_, hcompared, hasks.trans ?_⟩,
    fun hreply => hasks.trans ?_⟩
  · simp only [State.call?, State.number?_eq_some hreadElement, Option.map_some,
      UInt8.ofNat_toNat]
  · have hholds : Comparison.equal.holds .reply (Width.reply.residue (Host.putByte byte host).1)
        (Width.reply.residue 0) = true := decide_eq_true hreply
    exact State.course_branch hin Std.HashMap.getElem?_insert_self
      (by rw [hholds]; exact hproceed)
  · have hholds : Comparison.equal.holds .reply (Width.reply.residue (Host.putByte byte host).1)
        (Width.reply.residue 0) = false := decide_eq_false hreply
    exact (State.course_branch hin Std.HashMap.getElem?_insert_self
      (by rw [hholds]; exact hfault)).trans (State.course_ret hin)

end Output

/-- An input gets a byte and stores the low byte of the reply if it is not negative; else it returns
the index. Its code begins with the call. -/
theorem InputCode.exists_course (hcode : InputCode function index here next) (host : σ) :
    ∃ caller, Asks caller here .get host ∧
      (0 ≤ Width.reply.signed (Width.reply.residue (Host.getByte host).1) →
        ∃ values', Framed values' ∧
          State.Course function size ⟨here, values, slot, tape, host⟩ [caller]
            (.running ⟨next, values', slot,
              tape.setIfInBounds slot (UInt8.ofNat
                (Width.reply.residue (Host.getByte host).1 % Width.byte.modulus)),
              (Host.getByte host).2⟩)) ∧
      (¬ 0 ≤ Width.reply.signed (Width.reply.residue (Host.getByte host).1) →
        State.Course function size ⟨here, values, slot, tape, host⟩ [caller]
          (.returned index tape (Host.getByte host).2)) := by
  obtain ⟨reply, haveInput, byte, pointer, address, proceed, fault, others, others', hserial, rfl,
    hproceed, hfault⟩ := hcode
  have hasked := h.insert ⟨.unnamed, reply⟩ (.inr hserial)
    (.number (Width.reply.residue (Host.getByte host).1))
  have hcompared := hasked.insert ⟨.haveInput, haveInput⟩ (.inl (by simp))
    (.ofBool (Comparison.signedAtLeast.holds .reply (Width.reply.residue (Host.getByte host).1)
      (Width.reply.residue 0)))
  have hasks : State.Course function size
      ⟨.get ⟨.unnamed, reply⟩ ::
        .compare ⟨.haveInput, haveInput⟩ .signedAtLeast .reply ⟨.unnamed, reply⟩ 0 ::
          .branch ⟨.haveInput, haveInput⟩ proceed fault :: others, values, slot, tape, host⟩ _
      (.running ⟨.branch ⟨.haveInput, haveInput⟩ proceed fault :: others, _, slot, tape,
        (Host.getByte host).2⟩) :=
    (State.course_get hin).trans (State.course_compare hin Std.HashMap.getElem?_insert_self)
  refine ⟨_, ⟨rfl, rfl, rfl⟩, fun hreply => ?_, fun hreply => hasks.trans ?_⟩
  · have hholds : Comparison.signedAtLeast.holds .reply
        (Width.reply.residue (Host.getByte host).1) (Width.reply.residue 0) = true :=
      decide_eq_true hreply
    -- the reply is still known by its name after the comparison
    have hgiven := getElem?_insert_of_stem
      (values.insert ⟨.unnamed, reply⟩ (.number (Width.reply.residue (Host.getByte host).1)))
      (show Stem.haveInput ≠ Stem.unnamed by simp) haveInput reply
      (.ofBool (Comparison.signedAtLeast.holds .reply (Width.reply.residue (Host.getByte host).1)
        (Width.reply.residue 0)))
    rw [Std.HashMap.getElem?_insert_self] at hgiven
    have htruncated := hcompared.insert ⟨.inputByte, byte⟩ (.inl (by simp))
      (.number (Width.reply.residue (Host.getByte host).1 % Width.byte.modulus))
    have hpointer := htruncated.insert ⟨.pointer, pointer⟩ (.inl (by simp)) (.number slot)
    have haddress := hpointer.insert ⟨.elementAddress, address⟩ (.inl (by simp)) (.cellAddress slot)
    refine ⟨_, haddress, hasks.trans ((State.course_branch hin Std.HashMap.getElem?_insert_self
      (by rw [hholds]; exact hproceed)).trans ((State.course_truncate hin hgiven).trans
        ((State.course_load_word hin htruncated.slot).trans ((State.course_element hin hpointer.tape
          Std.HashMap.getElem?_insert_self).trans
            (State.course_store_byte hin Std.HashMap.getElem?_insert_self ?_)))))⟩
    rw [getElem?_insert_of_stem _ (by simp), getElem?_insert_of_stem _ (by simp),
      Std.HashMap.getElem?_insert_self]
  · have hholds : Comparison.signedAtLeast.holds .reply
        (Width.reply.residue (Host.getByte host).1) (Width.reply.residue 0) = false :=
      decide_eq_false hreply
    exact (State.course_branch hin Std.HashMap.getElem?_insert_self
      (by rw [hholds]; exact hfault)).trans (State.course_ret hin)

/-- A test goes on at the place that the comparison of the current cell with zero chooses. -/
theorem TestCode.exists_course {comparison : Comparison} {ifTrue ifFalse : List Instr}
    (hcode : TestCode function here comparison ifTrue ifFalse) {byte : UInt8}
    (hbyte : tape[slot]? = some byte) (host : σ) :
    ∃ values', Framed values' ∧
      State.Course function size ⟨here, values, slot, tape, host⟩ []
        (.running ⟨if comparison.holds .byte byte.toNat 0 then ifTrue else ifFalse, values', slot,
          tape, host⟩) := by
  obtain ⟨pointer, address, element, tested, first, second, others, rfl, hfirst, hsecond⟩ := hcode
  rw [testCode, List.append_assoc]
  obtain ⟨read, hread, -, hreadElement, hcourse⟩ :=
    exists_course_elementCode h hin hbyte function host pointer address element _
  refine ⟨_, hread.insert ⟨.compareZero, tested⟩ (.inl (by simp))
    (.ofBool (comparison.holds .byte byte.toNat 0)), ?_⟩
  refine hcourse.trans ((State.course_compare hin hreadElement).trans
    (State.course_branch hin Std.HashMap.getElem?_insert_self ?_))
  show function.HasBlock (if comparison.holds .byte byte.toNat 0 then first else second) _
  split
  · exact hfirst
  · exact hsecond

end Code

end Brainfuck.Native
