import Brainfuck.Proofs.Ir.Run

/-! # Safe courses of code

What each instruction does when it is executed, from a state in which it is safe: the data pointer
in the slot is the index of a cell, and an instruction that computes or uses an address, or that
computes with the data pointer, does so with the data pointer itself and stays inside the tape. A
course is a part of a run that visits such states only.

Main definitions: `State.Safe`, `State.Course`. -/

namespace Brainfuck.Ir

/-- The sum or difference, without wrapping around. -/
def Arithmetic.exact : Arithmetic → Int → Int → Int
  | .add, left, right => left + right
  | .sub, left, right => left - right

/-- The data pointer is the index of a cell of a tape of `size` cells. -/
structure InTape (size slot : Nat) (tape : Array UInt8) : Prop where
  /-- The number of cells. -/
  size_eq : tape.size = size
  /-- The data pointer is less. -/
  slot_lt : slot < size

namespace State

variable {σ : Type}

/-- The next instruction is safe on a tape of `size` cells. The data pointer is the index of a cell.
An address is computed from the address of the first cell and the data pointer; a byte is read or
written at the cell of the data pointer; and arithmetic on words computes exactly with the data
pointer, and comes to the index of a cell. -/
def Safe (size : Nat) (state : State σ) : Prop :=
  InTape size state.slot state.tape ∧
    match state.code with
    | .element _ base index :: _ =>
      state.values[base]? = some (.cellAddress 0) ∧ state.number? index = some state.slot
    | .load _ .byte address :: _ => state.values[address]? = some (.cellAddress state.slot)
    | .store .byte _ address :: _ => state.values[address]? = some (.cellAddress state.slot)
    | .arithmetic _ operation .word left right :: _ =>
      state.number? left = some state.slot ∧
        ∃ moved, operation.apply .word state.slot (Width.word.residue right) = moved ∧
          (moved : Int) = operation.exact state.slot right ∧ moved < size
    | _ => True

/-- The states among some in which a call is made. -/
def callers (states : List (State σ)) : List (State σ) := states.filter (·.call?.isSome)

/-- The calls are made by the callers. -/
theorem made_callers (states : List (State σ)) : made (callers states) = made states := by
  rw [made, made, callers, List.filterMap_filter]
  congr 1
  funext state
  cases state.call? <;> rfl

variable [Host σ] {function : Function} {size : Nat} {state middle next : State σ}
  {calling calling' : List (State σ)} {last : Step σ}

/-- After one or more instructions, all of them safe, a run comes to `last`, with the given states
calling on the way. -/
def Course (function : Function) (size : Nat) (state : State σ) (calling : List (State σ))
    (last : Step σ) : Prop :=
  ∃ count, state.run function (count + 1) = last ∧
    (∀ visited ∈ state.visited function (count + 1), visited.Safe size) ∧
    callers (state.visited function (count + 1)) = calling

namespace Course

/-- One safe instruction is a course. -/
theorem of_step (hsafe : state.Safe size) (hstep : state.step function = last)
    (hcalling : callers [state] = calling) : Course function size state calling last := by
  have hvisited : state.visited function (0 + 1) = [state] := by
    rw [visited]
    cases state.step function <;> rfl
  refine ⟨0, ?_, ?_, ?_⟩
  · rw [run, hstep]
    cases last <;> rfl
  · rw [hvisited]
    simpa using hsafe
  · rw [hvisited, hcalling]

theorem trans (h : Course function size state calling (.running middle))
    (h' : Course function size middle calling' last) :
    Course function size state (calling ++ calling') last := by
  obtain ⟨count, hrun, hsafe, hcalling⟩ := h
  obtain ⟨count', hrun', hsafe', hcalling'⟩ := h'
  have hvisited := visited_add hrun (count' + 1)
  refine ⟨count + 1 + count', ?_, ?_, ?_⟩
  · rw [Nat.add_assoc, run_add hrun, hrun']
  · rw [Nat.add_assoc, hvisited]
    exact List.forall_mem_append.mpr ⟨hsafe, hsafe'⟩
  · rw [Nat.add_assoc, hvisited, ← hcalling, ← hcalling', callers, List.filter_append]
    rfl

theorem leads (h : Course function size state calling (.running next)) :
    state.Leads function (made calling) next := by
  obtain ⟨count, hrun, -, hcalling⟩ := h
  exact ⟨count, hrun, by rw [calls_eq_made, ← hcalling, made_callers]⟩

theorem returns {word : Int} {tape : Array UInt8} {host : σ}
    (h : Course function size state calling (.returned word tape host)) :
    state.Returns function (made calling) word tape host := by
  obtain ⟨count, hrun, -, hcalling⟩ := h
  exact ⟨count + 1, hrun, by rw [calls_eq_made, ← hcalling, made_callers]⟩

/-- A run along a course is still on it, or it goes on from where the course leads. -/
theorem running_or_after (h : Course function size state calling (.running next)) (limit : Nat) :
    ((∃ middle, state.run function limit = .running middle) ∧
      ∀ visited ∈ state.visited function limit, visited.Safe size) ∨
    ∃ seen more, more < limit ∧ state.run function limit = next.run function more ∧
      state.visited function limit = seen ++ next.visited function more ∧
      (∀ visited ∈ seen, visited.Safe size) ∧ callers seen = calling := by
  obtain ⟨count, hrun, hsafe, hcalling⟩ := h
  by_cases hlimit : limit ≤ count
  · have hle : limit ≤ count + 1 := by omega
    exact .inl ⟨exists_running_of_le hle hrun,
      fun visited hvisited => hsafe visited ((visited_extends hle state).subset hvisited)⟩
  · obtain ⟨more, rfl⟩ := Nat.le.dest (show count + 1 ≤ limit by omega)
    exact .inr ⟨_, more, by omega, run_add hrun more, visited_add hrun more, hsafe, hcalling⟩

/-- A run along a course that returns is still on it, or has returned. -/
theorem running_or_returned {word : Int} {tape : Array UInt8} {host : σ}
    (h : Course function size state calling (.returned word tape host)) (limit : Nat) :
    (∀ visited ∈ state.visited function limit, visited.Safe size) ∧
    ((∃ middle, state.run function limit = .running middle) ∨
      state.run function limit = .returned word tape host ∧
        callers (state.visited function limit) = calling) := by
  obtain ⟨count, hrun, hsafe, hcalling⟩ := h
  have hended : ∀ middle, state.run function (count + 1) ≠ .running middle := by
    rw [hrun]
    simp
  have hearlier : state.visited function limit <+: state.visited function (count + 1) := by
    rw [← visited_add_of_ended hended limit]
    exact visited_extends (Nat.le_add_left limit (count + 1)) state
  refine ⟨fun visited hvisited => hsafe visited (hearlier.subset hvisited), ?_⟩
  cases hlimit : state.run function limit with
  | running middle => exact .inl ⟨middle, rfl⟩
  | _ =>
    -- both limits are enough for the whole run
    have hended' : ∀ middle, state.run function limit ≠ .running middle := by
      rw [hlimit]
      simp
    refine .inr ⟨?_, ?_⟩
    · rw [← hlimit, run_eq_run_of_ended hended' hended, hrun]
    · rw [← hcalling, ← visited_add_of_ended hended' (count + 1), Nat.add_comm,
        visited_add_of_ended hended]

end Course

/-! ## Instructions -/

section Instructions

variable {values : Std.HashMap Name Value} {slot : Nat} {tape : Array UInt8} {host : σ}
  {rest : List Instr} {result address name : Name} {value : Nat} (hin : InTape size slot tape)
include hin

theorem course_reserve :
    Course function size ⟨.reserve result :: rest, values, slot, tape, host⟩ []
      (.running ⟨rest, values.insert result .slotAddress, slot, tape, host⟩) :=
  .of_step ⟨hin, trivial⟩ rfl rfl

theorem course_load_word (h : values[address]? = some .slotAddress) :
    Course function size ⟨.load result .word address :: rest, values, slot, tape, host⟩ []
      (.running ⟨rest, values.insert result (.number slot), slot, tape, host⟩) := by
  refine .of_step ⟨hin, trivial⟩ ?_ rfl
  simp only [step, execute, loadFrom, h]
  rfl

theorem course_load_byte {byte : UInt8} (h : values[address]? = some (.cellAddress slot))
    (hbyte : tape[slot]? = some byte) :
    Course function size ⟨.load result .byte address :: rest, values, slot, tape, host⟩ []
      (.running ⟨rest, values.insert result (.number byte.toNat), slot, tape, host⟩) := by
  refine .of_step ⟨hin, h⟩ ?_ rfl
  simp only [step, execute, loadFrom, h, hbyte]
  rfl

theorem course_store_literal {integer : Int} (h : values[address]? = some .slotAddress) :
    Course function size
      ⟨.store .word (.literal integer) address :: rest, values, slot, tape, host⟩ []
      (.running ⟨rest, values, Width.word.residue integer, tape, host⟩) := by
  refine .of_step ⟨hin, trivial⟩ ?_ rfl
  simp only [step, execute, storeTo, h]

theorem course_store_word (h : values[address]? = some .slotAddress)
    (hname : values[name]? = some (.number value)) :
    Course function size ⟨.store .word (.named name) address :: rest, values, slot, tape, host⟩ []
      (.running ⟨rest, values, value, tape, host⟩) := by
  refine .of_step ⟨hin, trivial⟩ ?_ rfl
  simp only [step, execute, number?_eq_some hname, storeTo, h]

theorem course_store_byte (h : values[address]? = some (.cellAddress slot))
    (hname : values[name]? = some (.number value)) :
    Course function size ⟨.store .byte (.named name) address :: rest, values, slot, tape, host⟩ []
      (.running ⟨rest, values, slot, tape.setIfInBounds slot (UInt8.ofNat value), host⟩) := by
  have hslot : slot < tape.size := hin.size_eq ▸ hin.slot_lt
  refine .of_step ⟨hin, h⟩ ?_ rfl
  simp only [step, execute, number?_eq_some hname, storeTo, h, hslot, if_true]

theorem course_element {base : Name} (h : values[base]? = some (.cellAddress 0))
    (hname : values[name]? = some (.number slot)) :
    Course function size ⟨.element result base name :: rest, values, slot, tape, host⟩ []
      (.running ⟨rest, values.insert result (.cellAddress slot), slot, tape, host⟩) := by
  have hslot : slot < tape.size := hin.size_eq ▸ hin.slot_lt
  refine .of_step ⟨hin, h, number?_eq_some hname _ _ _ _⟩ ?_ rfl
  simp only [step, execute, addressOf, number?_eq_some hname, h, Nat.zero_add, hslot, if_true]
  rfl

theorem course_arithmetic_byte {operation : Arithmetic} {right : Int}
    (h : values[name]? = some (.number value)) :
    Course function size
      ⟨.arithmetic result operation .byte name right :: rest, values, slot, tape, host⟩ []
      (.running ⟨rest, values.insert result
        (.number (operation.apply .byte value (Width.byte.residue right))), slot, tape, host⟩) := by
  refine .of_step ⟨hin, trivial⟩ ?_ rfl
  simp only [step, execute, number?_eq_some h]
  rfl

/-- Arithmetic on the data pointer has to be exact, and to lead to a cell. -/
theorem course_arithmetic_word {operation : Arithmetic} {right : Int} {moved : Nat}
    (h : values[name]? = some (.number slot))
    (hmoved : operation.apply .word slot (Width.word.residue right) = moved)
    (hexact : (moved : Int) = operation.exact slot right) (hlt : moved < size) :
    Course function size
      ⟨.arithmetic result operation .word name right :: rest, values, slot, tape, host⟩ []
      (.running ⟨rest, values.insert result (.number moved), slot, tape, host⟩) := by
  refine .of_step ⟨hin, number?_eq_some h _ _ _ _, moved, hmoved, hexact, hlt⟩ ?_ rfl
  simp only [step, execute, number?_eq_some h, hmoved]
  rfl

theorem course_compare {comparison : Comparison} {width : Width} {right : Int}
    (h : values[name]? = some (.number value)) :
    Course function size
      ⟨.compare result comparison width name right :: rest, values, slot, tape, host⟩ []
      (.running ⟨rest,
        values.insert result (.ofBool (comparison.holds width value (width.residue right))), slot,
        tape, host⟩) := by
  refine .of_step ⟨hin, trivial⟩ ?_ rfl
  simp only [step, execute, number?_eq_some h]
  rfl

theorem course_truncate (h : values[name]? = some (.number value)) :
    Course function size ⟨.truncate result name :: rest, values, slot, tape, host⟩ []
      (.running ⟨rest, values.insert result (.number (value % Width.byte.modulus)), slot, tape,
        host⟩) := by
  refine .of_step ⟨hin, trivial⟩ ?_ rfl
  simp only [step, execute, number?_eq_some h]
  rfl

theorem course_put {byte : UInt8} (h : values[name]? = some (.number byte.toNat)) :
    Course function size ⟨.put result name :: rest, values, slot, tape, host⟩
      [⟨.put result name :: rest, values, slot, tape, host⟩]
      (.running ⟨rest,
        values.insert result (.number (Width.reply.residue (Host.putByte byte host).1)), slot,
        tape, (Host.putByte byte host).2⟩) := by
  refine .of_step ⟨hin, trivial⟩ ?_ ?_
  · simp only [step, execute, number?_eq_some h, UInt8.ofNat_toNat]
  · simp [callers, call?, number?_eq_some h]

theorem course_get :
    Course function size ⟨.get result :: rest, values, slot, tape, host⟩
      [⟨.get result :: rest, values, slot, tape, host⟩]
      (.running ⟨rest, values.insert result (.number (Width.reply.residue (Host.getByte host).1)),
        slot, tape, (Host.getByte host).2⟩) :=
  .of_step ⟨hin, trivial⟩ rfl rfl

theorem course_branch {truth : Bool} {ifTrue ifFalse : Nat} {code : List Instr}
    (h : values[name]? = some (.ofBool truth))
    (hblock : function.HasBlock (if truth then ifTrue else ifFalse) code) :
    Course function size ⟨.branch name ifTrue ifFalse :: rest, values, slot, tape, host⟩ []
      (.running ⟨code, values, slot, tape, host⟩) := by
  obtain ⟨label, hblock⟩ := hblock
  refine .of_step ⟨hin, trivial⟩ ?_ rfl
  -- a truth value is the number one or zero, and the branch asks whether it is zero
  have hcode (block : Nat) (hblock : function.blocks[block]? = some ⟨label, code⟩) :
      (State.mk (.branch name ifTrue ifFalse :: rest) values slot tape host).enter function block =
        .running ⟨code, values, slot, tape, host⟩ := by
    simp only [enter, hblock]
  simp only [step, execute, number?_eq_some h]
  cases truth with
  | false => exact hcode ifFalse hblock
  | true => exact hcode ifTrue hblock

theorem course_ret {word : Int} :
    Course function size ⟨.ret word :: rest, values, slot, tape, host⟩ []
      (.returned word tape host) :=
  .of_step ⟨hin, trivial⟩ rfl rfl

end Instructions

end State

end Brainfuck.Ir
