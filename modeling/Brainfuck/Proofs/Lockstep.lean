import Brainfuck.Proofs.Stepping

/-! # Machines in lockstep

Two machines that run alike programs at the same streams, on tapes that some relation holds of. If
the operations keep that relation, a step of the one is a step of the other: they come to the same
instruction, make the same calls on the streams and raise the same errors.

Main definitions: `Linked.Alike`, `Reply.Alike`, `Tape.Kept`, `Machine.Abreast`, `Outcome.Agrees`,
`Machine.Lockstep`. Main statements: what one step keeps (`Machine.Abreast.step`) and what any
number of steps keeps (`Machine.Abreast.lockstep`). -/

namespace Brainfuck

variable {ι ο : Type}

/-! ## Alike programs -/

/-- Two linked instructions do the same; they may stand at different places. -/
inductive Linked.Alike : Linked → Linked → Prop where
  /-- Both are plain, with the same operation. -/
  | plain {instruction instruction' : Instruction} (op : instruction.op = instruction'.op) :
      Alike (plain instruction) (plain instruction')
  /-- Both begin a loop that ends at the same index. -/
  | opener {instruction instruction' partner partner' : Instruction} {target : Nat}
      (op : instruction.op = instruction'.op) :
      Alike (opener instruction target partner) (opener instruction' target partner')
  /-- Both end a loop that begins at the same index. -/
  | closer {instruction instruction' partner partner' : Instruction} {target : Nat}
      (op : instruction.op = instruction'.op) :
      Alike (closer instruction target partner) (closer instruction' target partner')

theorem Linked.Alike.refl (entry : Linked) : entry.Alike entry := by
  cases entry with
  | plain instruction => exact .plain rfl
  | opener instruction target partner => exact .opener rfl
  | closer instruction target partner => exact .closer rfl

theorem Linked.Alike.op_eq {entry entry' : Linked} (h : entry.Alike entry') :
    entry.op = entry'.op := by
  cases h with
  | plain op => exact op
  | opener op => exact op
  | closer op => exact op

/-- Two linked programs have alike instructions at every index. -/
def LinkedProgram.Alike (program program' : LinkedProgram) : Prop :=
  ∀ index : Nat, Option.Rel Linked.Alike program.instructions[index]? program'.instructions[index]?

theorem LinkedProgram.Alike.refl (program : LinkedProgram) : program.Alike program := by
  intro index
  cases program.instructions[index]? with
  | none => exact .none
  | some entry => exact .some (.refl entry)

/-! ## Alike replies -/

/-- Errors of operations at two instructions are alike: one is at fault if the other is, for the
same cause, or both pass on the same failure. -/
inductive RunError.Alike (file file' : String) (instruction instruction' : Instruction) :
    RunError → RunError → Prop where
  /-- The instructions are at fault for the same cause. -/
  | fault (cause : FaultCause) :
      Alike file file' instruction instruction' (.fault ⟨file, instruction, cause⟩)
        (.fault ⟨file', instruction', cause⟩)
  /-- The same failure is passed on. -/
  | failure (failure : Failure) :
      Alike file file' instruction instruction' (.failure failure) (.failure failure)

/-- What steps of two machines came to is alike; errors are those of the instructions that the
machines were at. -/
inductive Reply.Alike (first second : Machine) : Reply → Reply → Prop where
  /-- Both executed an instruction. -/
  | advanced : Alike first second .advanced .advanced
  /-- Both programs had ended. -/
  | finished : Alike first second .finished .finished
  /-- Both instructions raised an error. -/
  | raised {entry entry' : Linked} {error error' : RunError} (next : first.next? = some entry)
      (next' : second.next? = some entry')
      (alike : error.Alike first.program.file second.program.file entry.instruction
        entry'.instruction error') :
      Alike first second (.raised error) (.raised error')

/-- Machines at the same instruction of one program that reply alike reply the same. -/
theorem Reply.Alike.eq {first second : Machine} {reply reply' : Reply}
    (h : reply.Alike first second reply') (hprogram : first.program = second.program)
    (hpc : first.pc = second.pc) : reply = reply' := by
  cases h with
  | advanced => rfl
  | finished => rfl
  | raised next next' alike =>
    have hnext : first.next? = second.next? := by rw [Machine.next?, Machine.next?, hprogram, hpc]
    rw [next, next', Option.some.injEq] at hnext
    subst hnext
    rw [hprogram] at alike
    cases alike <;> rfl

/-! ## Operations on related tapes -/

/-- The tape after a move to the right, if there is a cell to move to or one can be appended. -/
def Tape.right? (rules : Rules) (tape : Tape) : Option Tape :=
  if tape.head + 1 = tape.size then
    if rules.mayGrow then some (tape.grow rules.cell.zero).moveRight else none
  else some tape.moveRight

/-- A relation of tapes is kept by all operations under two sets of rules, moves to the right
aside: what the operations look at is the same on both tapes. -/
structure Tape.Kept (relation : Tape → Tape → Prop) (rules rules' : Rules) : Prop where
  /-- The data pointers are the same. -/
  head : ∀ {tape tape'}, relation tape tape' → tape.head = tape'.head
  /-- The bytes written from the current cells are the same. -/
  byte : ∀ {tape tape'}, relation tape tape' →
    rules.cell.toByte tape.current = rules'.cell.toByte tape'.current
  /-- A move to the left is kept, where there is one. -/
  left : ∀ {tape tape'}, relation tape tape' → tape.head ≠ 0 →
    relation tape.moveLeft tape'.moveLeft
  /-- Adding one is kept. -/
  increment : ∀ {tape tape'}, relation tape tape' →
    relation (tape.write (rules.cell.increment tape.current))
      (tape'.write (rules'.cell.increment tape'.current))
  /-- Subtracting one is kept. -/
  decrement : ∀ {tape tape'}, relation tape tape' →
    relation (tape.write (rules.cell.decrement tape.current))
      (tape'.write (rules'.cell.decrement tape'.current))
  /-- Storing a byte is kept. -/
  store : ∀ {tape tape'} (byte : UInt8), relation tape tape' →
    relation (tape.write (rules.cell.fromByte byte.toNat))
      (tape'.write (rules'.cell.fromByte byte.toNat))

/-- Two worlds have the same streams, and tapes that a relation holds of. -/
structure World.Alike (relation : Tape → Tape → Prop) (world world' : World ι ο) : Prop where
  /-- The relation holds of the tapes. -/
  tape : relation world.tape world'.tape
  /-- The inputs are the same. -/
  input : world.input = world'.input
  /-- The outputs are the same. -/
  output : world.output = world'.output

section Effects

variable [InputStream ι] [OutputStream ο] {relation : Tape → Tape → Prop} {rules rules' : Rules}
  {instruction instruction' : Instruction} {world world' after : World ι ο}
  {error : Option RunError}

/-- A move to the right has the effect that the tape after it tells. -/
theorem Primitive.effect_right (rules : Rules) (instruction : Instruction) (world : World ι ο) :
    match world.tape.right? rules with
    | some tape => Primitive.right.Effect rules instruction world none { world with tape }
    | none => Primitive.right.Effect rules instruction world
        (some (.fault ⟨rules.file, instruction, .seekTooHigh⟩)) world := by
  unfold Tape.right?
  by_cases last : world.tape.head + 1 = world.tape.size
  · rw [if_pos last]
    cases mayGrow : rules.mayGrow with
    | true => exact .grow last mayGrow
    | false => exact .tooHigh last mayGrow
  · rw [if_neg last]
    exact .right last

/-- An operation does on an alike world what it does on the other. -/
theorem Primitive.exists_effects_alike (operation : Primitive)
    (hkept : Tape.Kept relation rules rules') (instruction instruction' : Instruction)
    (hworld : world.Alike relation world')
    (hright : operation = .right →
      Option.Rel relation (world.tape.right? rules) (world'.tape.right? rules')) :
    ∃ error error' after after', operation.Effect rules instruction world error after ∧
      operation.Effect rules' instruction' world' error' after' ∧
      Option.Rel (RunError.Alike rules.file rules'.file instruction instruction') error error' ∧
      after.Alike relation after' := by
  obtain ⟨tape, input, output⟩ := world
  obtain ⟨tape', input', output'⟩ := world'
  obtain ⟨htape, hinput, houtput⟩ := hworld
  dsimp only at htape hinput houtput hright
  subst hinput houtput
  have hhead := hkept.head htape
  have hbyte := hkept.byte htape
  -- a call gets the same reply on both sides, and the reply settles its case
  cases operation with
  | right =>
    have heffect := Primitive.effect_right rules instruction (⟨tape, input, output⟩ : World ι ο)
    have heffect' := Primitive.effect_right rules' instruction' (⟨tape', input, output⟩ : World ι ο)
    have hmoved := hright rfl
    dsimp only at heffect heffect'
    generalize tape.right? rules = moved at heffect hmoved
    generalize tape'.right? rules' = moved' at heffect' hmoved
    cases hmoved with
    | some hmoved => exact ⟨_, _, _, _, heffect, heffect', .none, hmoved, rfl, rfl⟩
    | none => exact ⟨_, _, _, _, heffect, heffect', .some (.fault _), htape, rfl, rfl⟩
  | left =>
    by_cases first : tape.head = 0
    · exact ⟨_, _, _, _, .tooLow first, .tooLow (hhead ▸ first), .some (.fault _), htape, rfl, rfl⟩
    · exact ⟨_, _, _, _, .left first, .left (hhead ▸ first), .none, hkept.left htape first, rfl,
        rfl⟩
  | add => exact ⟨_, _, _, _, .add, .add, .none, hkept.increment htape, rfl, rfl⟩
  | sub => exact ⟨_, _, _, _, .sub, .sub, .none, hkept.decrement htape, rfl, rfl⟩
  | output =>
    cases reply : OutputStream.writeByte (rules.cell.toByte tape.current) output with
    | mk result after =>
      have reply' := reply
      rw [hbyte] at reply'
      cases result with
      | ok => exact ⟨_, _, _, _, .output reply, .output reply', .none, htape, rfl, rfl⟩
      | error failure =>
        cases blamed : failure.kind.isOutputError with
        | true =>
          exact ⟨_, _, _, _, .outputFault reply blamed, .outputFault reply' blamed,
            .some (.fault _), htape, rfl, rfl⟩
        | false =>
          exact ⟨_, _, _, _, .outputFailure reply blamed, .outputFailure reply' blamed,
            .some (.failure _), htape, rfl, rfl⟩
  | input =>
    cases reply : InputStream.readByte input with
    | mk result after =>
      cases result with
      | ok byte =>
        exact ⟨_, _, _, _, .input reply, .input reply, .none, hkept.store byte htape, rfl, rfl⟩
      | error failure =>
        cases blamed : failure.kind.isInputError with
        | true =>
          exact ⟨_, _, _, _, .inputFault reply blamed, .inputFault reply blamed,
            .some (.fault _), htape, rfl, rfl⟩
        | false =>
          exact ⟨_, _, _, _, .inputFailure reply blamed, .inputFailure reply blamed,
            .some (.failure _), htape, rfl, rfl⟩

end Effects

/-! ## Machines abreast -/

namespace Machine

/-- Two machines are at the same instruction and in the same part of their lives, at the same
streams, with tapes that a relation holds of. -/
structure Abreast (relation : Tape → Tape → Prop) (first second : Machine)
    (console console' : Console ι ο) : Prop where
  /-- The program counters are the same. -/
  pc : first.pc = second.pc
  /-- The statuses are the same. -/
  status : first.status = second.status
  /-- The relation holds of the tapes. -/
  tape : relation first.tape second.tape
  /-- The streams are the same. -/
  streams : console.streams = console'.streams

end Machine

/-- Two outcomes are the same, but for the tapes, which a relation holds of. -/
structure Outcome.Agrees (relation : Tape → Tape → Prop) (first second : Outcome ι ο) : Prop where
  /-- The replies are the same. -/
  reply : first.reply = second.reply
  /-- Program counters, statuses and streams are the same, and the relation holds of the tapes. -/
  abreast : first.machine.Abreast relation second.machine first.console second.console

namespace Machine

/-- The instruction that two machines are at does the same on both tapes where that is a matter of
more than their relation: the test of a loop start, and a move to the right. -/
structure Fits (relation : Tape → Tape → Prop) (first second : Machine) : Prop where
  /-- The tests come out the same. -/
  test : ∀ {instruction partner : Instruction} {target : Nat},
    first.next? = some (.opener instruction target partner) →
    (first.tape.current = 0 ↔ second.tape.current = 0)
  /-- The moves are both possible and lead to related tapes, or both are not. -/
  right : ∀ {instruction : Instruction}, first.next? = some (.plain instruction) →
    instruction.op = .right →
    Option.Rel relation (first.tape.right? first.rules) (second.tape.right? second.rules)

section Steps

variable {relation : Tape → Tape → Prop} {first second : Machine}
  {console console' : Console ι ο}

theorem Abreast.world (h : Abreast relation first second console console') :
    (first.world console).Alike relation (second.world console') :=
  ⟨h.tape, congrArg Prod.fst h.streams, congrArg Prod.snd h.streams⟩

/-- Machines that go to the same instruction with their tapes stay abreast. -/
theorem Abreast.goTo (h : Abreast relation first second console console') (target : Nat) :
    Abreast relation (first.goTo first.tape target) (second.goTo second.tape target)
      console console' where
  pc := rfl
  status := h.status
  tape := h.tape
  streams := h.streams

variable [OutputStream ο]

/-- Machines abreast make the same calls in a step. -/
theorem Abreast.stepCalls_eq (h : Abreast relation first second console console')
    (hkept : Tape.Kept relation first.rules second.rules)
    (hnext : Option.Rel Linked.Alike first.next? second.next?) :
    first.stepCalls console = second.stepCalls console' := by
  have hbyte : first.cell.toByte first.tape.current = second.cell.toByte second.tape.current :=
    hkept.byte h.tape
  have houtput : console.output = console'.output := congrArg Prod.snd h.streams
  unfold stepCalls
  generalize first.next? = entry at hnext
  generalize second.next? = entry' at hnext
  cases hnext with
  | none => rfl
  | some alike =>
    cases alike with
    | plain op => simp only [op, hbyte, houtput]
    | opener op => rfl
    | closer op => rfl

variable [InputStream ι]

/-- The step of a plain operation keeps machines abreast. -/
theorem Abreast.step_plain (h : Abreast relation first second console console')
    (hkept : Tape.Kept relation first.rules second.rules) (hfits : Fits relation first second)
    {instruction instruction' : Instruction} {operation : Primitive}
    (hfirst : first.next? = some (.plain instruction))
    (hsecond : second.next? = some (.plain instruction')) (hop : instruction.op = operation.op)
    (hop' : instruction'.op = operation.op) :
    Abreast relation (first.step console).machine (second.step console').machine
        (first.step console).console (second.step console').console ∧
      (first.step console).reply.Alike first second (second.step console').reply := by
  obtain ⟨error, error', after, after', effect, effect', herror, hafter⟩ :=
    operation.exists_effects_alike hkept instruction instruction' h.world fun hright =>
      hfits.right hfirst (by rw [hop, hright]; rfl)
  cases herror with
  | none =>
    rw [step_of_effect hfirst hop effect, step_of_effect hsecond hop' effect']
    refine ⟨⟨congrArg (· + 1) h.pc, h.status, hafter.tape, ?_⟩, .advanced⟩
    simp [Console.streams, hafter.input, hafter.output]
  | some alike =>
    rw [step_of_effect_raised hfirst hop effect, step_of_effect_raised hsecond hop' effect']
    refine ⟨⟨h.pc, ?_, h.tape, ?_⟩, .raised hfirst hsecond alike⟩
    · -- the errors are both faults of an instruction, or the same failure
      cases alike with
      | fault cause => rfl
      | failure failure => exact congrArg (statusAfter · (.failure failure)) h.status
    · simp [Console.streams, hafter.input, hafter.output]

/-- A step keeps machines abreast, and comes to the same on both. -/
theorem Abreast.step (h : Abreast relation first second console console')
    (hkept : Tape.Kept relation first.rules second.rules)
    (hprogram : first.program.Alike second.program) (hfits : Fits relation first second) :
    Abreast relation (first.step console).machine (second.step console').machine
        (first.step console).console (second.step console').console ∧
      (first.step console).reply.Alike first second (second.step console').reply ∧
      first.stepCalls console = second.stepCalls console' := by
  have hnext : Option.Rel Linked.Alike first.next? second.next? := by
    have hentries := hprogram first.pc
    rwa [next?, next?, ← h.pc]
  have hcalls := h.stepCalls_eq hkept hnext
  rw [← and_assoc]
  refine ⟨?_, hcalls⟩
  -- both programs have entries of the same kind at the same index
  generalize hfirst : first.next? = entry at hnext
  generalize hsecond : second.next? = entry' at hnext
  cases hnext with
  | none =>
    rw [step_of_next?_eq_none hfirst, step_of_next?_eq_none hsecond]
    exact ⟨⟨h.pc, rfl, h.tape, h.streams⟩, .finished⟩
  | some alike =>
    cases alike with
    | @plain instruction instruction' op =>
      by_cases hbracket : instruction.op = .loopStart ∨ instruction.op = .loopEnd
      · rw [step_of_unlinked hfirst hbracket, step_of_unlinked hsecond (op ▸ hbracket), h.pc]
        exact ⟨h.goTo _, .advanced⟩
      · obtain ⟨hs, he⟩ := not_or.mp hbracket
        obtain ⟨operation, hop⟩ := Primitive.exists_op_eq hs he
        exact h.step_plain hkept hfits hfirst hsecond hop.symm (op ▸ hop.symm)
    | opener op =>
      have htest := hfits.test hfirst
      by_cases hzero : first.tape.current = 0
      · rw [step_of_opener_zero hfirst hzero, step_of_opener_zero hsecond (htest.mp hzero)]
        exact ⟨h.goTo _, .advanced⟩
      · rw [step_of_opener_nonzero hfirst hzero,
          step_of_opener_nonzero hsecond (mt htest.mpr hzero), h.pc]
        exact ⟨h.goTo _, .advanced⟩
    | closer op =>
      rw [step_of_closer hfirst, step_of_closer hsecond]
      exact ⟨h.goTo _, .advanced⟩

/-- After a number of steps two machines are abreast; all of them came to the same on both, with the
same calls. -/
structure Lockstep (relation : Tape → Tape → Prop) (first second : Machine)
    (console console' : Console ι ο) (count : Nat) : Prop where
  /-- The machines are abreast. -/
  abreast : Abreast relation (first.steps count console).machine
    (second.steps count console').machine (first.steps count console).console
    (second.steps count console').console
  /-- Every step came to the same. -/
  replies : ∀ step < count, (first.steps (step + 1) console).reply.Alike
    (first.steps step console).machine (second.steps step console').machine
    (second.steps (step + 1) console').reply
  /-- The calls are the same. -/
  calls : first.stepsCalls count console = second.stepsCalls count console'

/-- Steps keep machines abreast, as long as each instruction on the way does the same on both
tapes. -/
theorem Abreast.lockstep (h : Abreast relation first second console console')
    (hkept : Tape.Kept relation first.rules second.rules)
    (hprogram : first.program.Alike second.program) {count : Nat}
    (hfits : ∀ step < count, Lockstep relation first second console console' step →
      Fits relation (first.steps step console).machine (second.steps step console').machine) :
    Lockstep relation first second console console' count := by
  induction count with
  | zero => exact ⟨h, by simp, rfl⟩
  | succ count ih =>
    have hbefore := ih fun step hstep => hfits step (Nat.lt_succ_of_lt hstep)
    obtain ⟨habreast, hreply, hcalls⟩ := hbefore.abreast.step (by simpa using hkept)
      (by simpa using hprogram) (hfits count (Nat.lt_succ_self count) hbefore)
    refine ⟨habreast, ?_, ?_⟩
    · intro step hstep
      by_cases heq : step = count
      · subst heq
        exact hreply
      · exact hbefore.replies step (by omega)
    · rw [stepsCalls_succ, stepsCalls_succ, hbefore.calls, hcalls]

/-- Steps of machines in lockstep that have the same program come to the same. -/
theorem Lockstep.agrees {count : Nat} (hsame : first.program = second.program)
    (h : ∀ step ≤ count, Lockstep relation first second console console' step) :
    (first.steps count console).Agrees relation (second.steps count console') := by
  refine ⟨?_, (h count (Nat.le_refl count)).abreast⟩
  cases count with
  | zero => rfl
  | succ count =>
    have hreply := (h (count + 1) (Nat.le_refl _)).replies count (Nat.lt_succ_self count)
    exact hreply.eq (by simpa using hsame) (h count (Nat.le_succ count)).abreast.pc

end Steps

end Machine

end Brainfuck
