import Brainfuck.Proofs.Calls
import Brainfuck.Proofs.Flaky

/-! # Runs depend on the input that they have consumed

An input gives out its bytes one at a time, and goes wrong at calls of given numbers. A run that
never asks it for a byte when there are none left does the same whatever follows the bytes that it
has consumed. A run that does ask has come to an instruction to which it also comes if there are
more bytes, and there it goes on with the next one.

Main definitions: `PatternedInput`, `Starves`, `Machine.Causal`. Main statements: what one step does
at another input (`Machine.exists_step_supplied`), what a run does at another input
(`Machine.exists_run_supplied`), and where a run asks in vain (`Machine.exists_starving_step`). -/

namespace Brainfuck

/-! ## Inputs that go wrong at given calls -/

/-- An input that gives out one byte at a time and counts its calls. -/
structure PatternedInput where
  /-- The bytes not yet given out. -/
  remaining : List UInt8 := []
  /-- What goes wrong at the call of a number, if anything. -/
  hitch : Nat → Option ReadHitch := fun _ => none
  /-- The number of reads made. -/
  reads : Nat := 0
  /-- The number of bytes given out. -/
  consumed : Nat := 0

namespace PatternedInput

/-- Gives out the next byte, or goes wrong as the pattern says and gives out nothing. -/
def read (input : PatternedInput) : ReadReply × PatternedInput :=
  match input.hitch input.reads, input.remaining with
  | some (.failed failure), _ => (.failed failure, { input with reads := input.reads + 1 })
  | some .nothing, _ => (.data [], { input with reads := input.reads + 1 })
  | none, [] => (.data [], { input with reads := input.reads + 1 })
  | none, byte :: rest =>
    (.data [byte],
      { input with
        remaining := rest
        reads := input.reads + 1
        consumed := input.consumed + 1 })

instance : InputStream PatternedInput where
  read := read

/-- The next read comes to nothing only because there are no bytes left. -/
structure Exhausted (input : PatternedInput) : Prop where
  /-- There are no bytes left. -/
  ended : input.remaining = []
  /-- Nothing else goes wrong. -/
  smooth : input.hitch input.reads = none

/-- The input with other bytes to give out. -/
def supplied (input : PatternedInput) (data : List UInt8) : PatternedInput :=
  { input with remaining := data }

/-- An input has given out some bytes and become another one. -/
structure Gives (used : List UInt8) (input later : PatternedInput) : Prop where
  /-- The bytes were the first of those that there were. -/
  remaining : input.remaining = used ++ later.remaining
  /-- They were counted. -/
  consumed : later.consumed = input.consumed + used.length

theorem gives_nil (input : PatternedInput) : Gives [] input input := ⟨rfl, rfl⟩

theorem Gives.trans {first second : List UInt8} {input middle later : PatternedInput}
    (h : Gives first input middle) (h' : Gives second middle later) :
    Gives (first ++ second) input later where
  remaining := by rw [h.remaining, h'.remaining, List.append_assoc]
  consumed := by rw [h'.consumed, h.consumed, List.length_append, Nat.add_assoc]

/-- The bytes given out are the first ones, as many as were counted. -/
theorem Gives.eq_take {used : List UInt8} {input later : PatternedInput}
    (h : Gives used input later) :
    input.remaining.take (later.consumed - input.consumed) = used := by
  have hcount : later.consumed - input.consumed = used.length := by
    rw [h.consumed]
    omega
  rw [hcount, h.remaining, List.take_left]

/-- Reading a byte from an input that is not exhausted: what follows the bytes given out makes no
difference. -/
theorem exists_readByte_supplied {input : PatternedInput} (h : ¬ input.Exhausted) :
    ∃ used, Gives used input (InputStream.readByte input).2 ∧
      ∀ rest, InputStream.readByte (input.supplied (used ++ rest)) =
        ((InputStream.readByte input).1, (InputStream.readByte input).2.supplied rest) := by
  have hread (input : PatternedInput) : InputStream.read input = input.read := rfl
  unfold InputStream.readByte
  simp only [hread]
  cases hhitch : input.hitch input.reads with
  | some hitch =>
    -- the call goes wrong before any bytes are looked at
    refine ⟨[], ?_, fun rest => ?_⟩
    · cases hitch <;> simp only [read, hhitch] <;> exact ⟨rfl, rfl⟩
    · cases hitch <;> simp only [read, supplied, hhitch] <;> rfl
  | none =>
    cases hremaining : input.remaining with
    | nil => exact absurd ⟨hremaining, hhitch⟩ h
    | cons byte following =>
      refine ⟨[byte], ?_, fun rest => ?_⟩
      · simp only [read, hhitch, hremaining]
        exact ⟨hremaining, rfl⟩
      · simp only [read, supplied, hhitch, hremaining, List.cons_append, List.nil_append]

/-- Reading a byte from an exhausted input. -/
theorem readByte_of_exhausted {input : PatternedInput} (h : input.Exhausted) :
    InputStream.readByte input =
      (.error .exhausted, { input with reads := input.reads + 1 }) := by
  have hread : InputStream.read input = input.read := rfl
  unfold InputStream.readByte
  simp only [hread, read, h.smooth, h.ended]

/-- Reading a byte from an input that was exhausted and has been supplied with more. -/
theorem readByte_supplied_of_exhausted {input : PatternedInput} (h : input.Exhausted)
    (byte : UInt8) (rest : List UInt8) :
    InputStream.readByte (input.supplied (byte :: rest)) =
      (.ok byte, { input with
        remaining := rest
        reads := input.reads + 1
        consumed := input.consumed + 1 }) := by
  have hread (input : PatternedInput) : InputStream.read input = input.read := rfl
  unfold InputStream.readByte
  simp only [hread, read, supplied, h.smooth]

end PatternedInput

variable {ο : Type} [OutputStream ο]

/-- Among some calls is a read of an exhausted input. -/
inductive Starves : List StreamCall → PatternedInput × ο → Prop where
  /-- The first call is one. -/
  | here {rest : List StreamCall} {streams : PatternedInput × ο}
      (exhausted : streams.1.Exhausted) : Starves (.read :: rest) streams
  /-- A later call is one. -/
  | later {call : StreamCall} {rest : List StreamCall} {streams : PatternedInput × ο}
      (starves : Starves rest (replay [call] streams)) : Starves (call :: rest) streams

@[simp] theorem not_starves_nil (streams : PatternedInput × ο) : ¬ Starves [] streams := nofun

theorem starves_cons_iff {call : StreamCall} {rest : List StreamCall}
    {streams : PatternedInput × ο} :
    Starves (call :: rest) streams ↔
      call = .read ∧ streams.1.Exhausted ∨ Starves rest (replay [call] streams) := by
  constructor
  · intro h
    cases h with
    | here exhausted => exact .inl ⟨rfl, exhausted⟩
    | later starves => exact .inr starves
  · rintro (⟨rfl, exhausted⟩ | starves)
    · exact .here exhausted
    · exact .later starves

@[simp] theorem starves_read_iff {streams : PatternedInput × ο} :
    Starves [.read] streams ↔ streams.1.Exhausted := by
  simp [starves_cons_iff]

theorem starves_append (first second : List StreamCall) (streams : PatternedInput × ο) :
    Starves (first ++ second) streams ↔
      Starves first streams ∨ Starves second (replay first streams) := by
  induction first generalizing streams with
  | nil => simp [replay]
  | cons call rest ih =>
    have hreplay : replay (call :: rest) streams = replay rest (replay [call] streams) :=
      replay_append [call] rest streams
    rw [List.cons_append, starves_cons_iff, starves_cons_iff, ih, or_assoc, hreplay]

/-- Writing asks the input for nothing. -/
theorem not_starves_writeCalls (value : Int) (output : ο) (streams : PatternedInput × ο) :
    ¬ Starves (writeCalls value output) streams := by
  unfold writeCalls
  split
  · split <;> simp [starves_cons_iff]
  · exact not_starves_nil _

/-! ## Steps at another input -/

section Inputs

variable {ι : Type}

/-- The console with another input. -/
def Console.withInput (console : Console ι ο) (input : ι) : Console ι ο := { console with input }

/-- The outcome at another input. -/
def Outcome.withInput (outcome : Outcome ι ο) (input : ι) : Outcome ι ο :=
  { outcome with console := outcome.console.withInput input }

omit [OutputStream ο] in
@[simp] theorem Console.input_withInput (console : Console ι ο) (input : ι) :
    (console.withInput input).input = input := rfl

variable [InputStream ι]

/-- An operation that does not read leaves the input alone, whatever it is. -/
theorem Primitive.Effect.withInput {rules : Rules} {instruction : Instruction}
    {operation : Primitive} {error : Option RunError} {world after : World ι ο}
    (h : operation.Effect rules instruction world error after) (hop : operation ≠ .input) :
    after.input = world.input ∧ ∀ input : ι,
      operation.Effect rules instruction { world with input } error { after with input } := by
  cases h with
  | right inside => exact ⟨rfl, fun _ => .right inside⟩
  | grow last mayGrow => exact ⟨rfl, fun _ => .grow last mayGrow⟩
  | tooHigh last fixed => exact ⟨rfl, fun _ => .tooHigh last fixed⟩
  | left inside => exact ⟨rfl, fun _ => .left inside⟩
  | tooLow first => exact ⟨rfl, fun _ => .tooLow first⟩
  | add => exact ⟨rfl, fun _ => .add⟩
  | sub => exact ⟨rfl, fun _ => .sub⟩
  | output reply => exact ⟨rfl, fun _ => .output reply⟩
  | outputFault reply blamed => exact ⟨rfl, fun _ => .outputFault reply blamed⟩
  | outputFailure reply passed => exact ⟨rfl, fun _ => .outputFailure reply passed⟩
  | input | inputFault | inputFailure => exact absurd rfl hop

namespace Machine

variable {machine : Machine} {instruction : Instruction}

/-- A step that does not read leaves the input alone, whatever it is. -/
theorem step_withInput
    (h : ∀ instruction, machine.next? = some (.plain instruction) → instruction.op ≠ .input)
    (console : Console ι ο) :
    (machine.step console).console.input = console.input ∧ ∀ input : ι,
      machine.step (console.withInput input) = (machine.step console).withInput input := by
  have hstepped := machine.stepped_step console
  generalize machine.step console = outcome at hstepped
  have hother {instruction : Instruction} {operation : Primitive}
      (next : machine.next? = some (.plain instruction)) (op : instruction.op = operation.op) :
      operation ≠ .input := by
    rintro rfl
    exact h instruction next op
  -- only a plain operation could look at the input, and this one does not
  cases hstepped with
  | finished ended => exact ⟨rfl, fun input => step_of_next?_eq_none ended⟩
  | completed next op effect =>
    obtain ⟨hinput, heffect⟩ := effect.withInput (hother next op)
    refine ⟨hinput, fun input => ?_⟩
    rw [step_of_effect next op (heffect input)]
    rfl
  | raised next op effect =>
    obtain ⟨hinput, heffect⟩ := effect.withInput (hother next op)
    refine ⟨hinput, fun input => ?_⟩
    rw [step_of_effect_raised next op (heffect input)]
    rfl
  | skipped next zero =>
    refine ⟨rfl, fun input => ?_⟩
    rw [step_of_opener_zero next zero]
    rfl
  | entered next nonzero =>
    refine ⟨rfl, fun input => ?_⟩
    rw [step_of_opener_nonzero next nonzero]
    rfl
  | returned next =>
    refine ⟨rfl, fun input => ?_⟩
    rw [step_of_closer next]
    rfl
  | passed next bracket =>
    refine ⟨rfl, fun input => ?_⟩
    rw [step_of_unlinked next bracket]
    rfl

/-- What a step that reads comes to, by the reply of its read. -/
theorem step_of_input (hnext : machine.next? = some (.plain instruction))
    (hop : instruction.op = .input) (console : Console ι ο) :
    machine.step console =
      match InputStream.readByte console.input with
      | (.ok byte, input) =>
        let next := machine.goTo (machine.tape.write (machine.cell.fromByte byte.toNat))
          (machine.pc + 1)
        ⟨.advanced, next, console.withInput input⟩
      | (.error failure, input) =>
        let error := machine.inputError (.plain instruction) failure
        ⟨.raised error, { machine with status := statusAfter machine.status error },
          console.withInput input⟩ := by
  cases hread : InputStream.readByte console.input with
  | mk result input =>
    cases result with
    | ok byte =>
      have hoperation : instruction.op = Primitive.input.op := hop
      exact step_of_effect hnext hoperation (.input hread)
    | error failure =>
      have hexecute : machine.execute (.plain instruction) console =
          ⟨.raised (machine.inputError (.plain instruction) failure), machine,
            console.withInput input⟩ := by
        simp only [execute, hop, Console.readByte, hread]
        rfl
      exact step_of_execute_raised hnext hexecute

end Machine

end Inputs

/-! ## Steps at an input with other bytes to come -/

/-- The console with other bytes of input. -/
def Console.supplied (console : Console PatternedInput ο) (data : List UInt8) :
    Console PatternedInput ο :=
  console.withInput (console.input.supplied data)

/-- The console with more bytes of input, after those that there are. -/
def Console.extended (console : Console PatternedInput ο) (data : List UInt8) :
    Console PatternedInput ο :=
  console.supplied (console.input.remaining ++ data)

/-- The number of bytes of input that were consumed from one console to a later one. -/
def Console.consumedBy (console later : Console PatternedInput ο) : Nat :=
  later.input.consumed - console.input.consumed

/-- The outcome with other bytes of input left. -/
def Outcome.supplied (outcome : Outcome PatternedInput ο) (data : List UInt8) :
    Outcome PatternedInput ο :=
  { outcome with console := outcome.console.supplied data }

namespace Machine

variable {machine next : Machine} {console later : Console PatternedInput ο}

/-- A machine is about to read from an exhausted input. -/
structure Awaits (instruction : Instruction) (machine : Machine)
    (console : Console PatternedInput ο) : Prop where
  /-- The instruction is the next one. -/
  next : machine.next? = some (.plain instruction)
  /-- It reads. -/
  op : instruction.op = .input
  /-- The input is exhausted. -/
  exhausted : console.input.Exhausted

/-- A step asks an exhausted input for a byte only at an instruction that reads. -/
theorem starves_stepCalls_iff :
    Starves (machine.stepCalls console) console.streams ↔
      ∃ instruction, machine.Awaits instruction console := by
  constructor
  · intro h
    unfold stepCalls at h
    split at h
    next instruction hnext =>
      split at h
      next hop => exact ⟨instruction, hnext, hop, starves_read_iff.mp h⟩
      next hop => exact absurd h (not_starves_writeCalls _ _ _)
      next => exact absurd h (not_starves_nil _)
    next => exact absurd h (not_starves_nil _)
  · rintro ⟨instruction, hnext, hop, hexhausted⟩
    simpa [stepCalls, hnext, hop, Console.streams] using hexhausted

/-- A step that does not starve does the same whatever follows the bytes that it consumes. -/
theorem exists_step_supplied (h : ¬ Starves (machine.stepCalls console) console.streams) :
    ∃ used, PatternedInput.Gives used console.input (machine.step console).console.input ∧
      ∀ rest, machine.step (console.supplied (used ++ rest)) =
        (machine.step console).supplied rest := by
  by_cases hreads : ∃ instruction, machine.next? = some (.plain instruction) ∧
      instruction.op = .input
  · obtain ⟨instruction, hnext, hop⟩ := hreads
    have hgiving : ¬ console.input.Exhausted := fun hexhausted =>
      h (starves_stepCalls_iff.mpr ⟨instruction, hnext, hop, hexhausted⟩)
    obtain ⟨used, hgives, hsame⟩ := PatternedInput.exists_readByte_supplied hgiving
    have hread (rest : List UInt8) :
        InputStream.readByte (console.supplied (used ++ rest)).input = _ := hsame rest
    refine ⟨used, ?_, fun rest => ?_⟩
    · rw [step_of_input hnext hop]
      split
      next byte input heq => simpa [heq] using hgives
      next failure input heq => simpa [heq] using hgives
    · rw [step_of_input hnext hop, step_of_input hnext hop, hread rest]
      cases InputStream.readByte console.input with
      | mk result input =>
        cases result with
        | ok byte => rfl
        | error failure => rfl
  · have hother : ∀ instruction, machine.next? = some (.plain instruction) →
        instruction.op ≠ .input := fun instruction hnext hop => hreads ⟨instruction, hnext, hop⟩
    obtain ⟨hinput, hsame⟩ := step_withInput hother console
    refine ⟨[], hinput ▸ PatternedInput.gives_nil _, fun rest => ?_⟩
    rw [List.nil_append, Console.supplied, hsame, Outcome.supplied, Console.supplied, hinput]
    rfl

/-! ## Runs at an input with other bytes to come -/

/-- A run that does not starve does the same whatever follows the bytes that it consumes. -/
theorem exists_run_supplied {limit : Nat}
    (h : ¬ Starves (machine.calls limit console) console.streams) :
    ∃ used, PatternedInput.Gives used console.input (machine.run limit console).console.input ∧
      ∀ rest, machine.run limit (console.supplied (used ++ rest)) =
          (machine.run limit console).supplied rest ∧
        machine.calls limit (console.supplied (used ++ rest)) = machine.calls limit console := by
  induction limit generalizing machine console with
  | zero => exact ⟨[], PatternedInput.gives_nil _, fun rest => ⟨rfl, rfl⟩⟩
  | succ limit ih =>
    have hcalls (data : List UInt8) :
        machine.stepCalls (console.supplied data) = machine.stepCalls console := rfl
    have hstreams := machine.streams_step console
    cases hstep : machine.step console with
    | mk reply next later =>
      rw [hstep] at hstreams
      by_cases hreply : reply = .advanced
      · subst hreply
        rw [calls_succ_of_advanced hstep, starves_append, not_or, ← hstreams] at h
        obtain ⟨used, hgives, hsame⟩ := exists_step_supplied h.1
        obtain ⟨used', hgives', hsame'⟩ := ih h.2
        rw [hstep] at hgives
        rw [run_succ_of_advanced hstep]
        -- what the first step uses comes in front of what the rest of the run uses
        refine ⟨used ++ used', hgives.trans hgives', fun rest => ?_⟩
        have hfirst := hsame (used' ++ rest)
        rw [hstep] at hfirst
        rw [List.append_assoc, run_succ_of_advanced hfirst, calls_succ_of_advanced hfirst,
          calls_succ_of_advanced hstep, hcalls]
        exact ⟨(hsame' rest).1, by rw [(hsame' rest).2]⟩
      · have hended : (machine.step console).reply ≠ .advanced := by rw [hstep]; exact hreply
        rw [calls_succ_of_ended hended] at h
        obtain ⟨used, hgives, hsame⟩ := exists_step_supplied h
        rw [run_succ_of_ended hended, calls_succ_of_ended hended]
        refine ⟨used, hgives, fun rest => ?_⟩
        have hended' : (machine.step (console.supplied (used ++ rest))).reply ≠ .advanced := by
          rw [hsame]
          exact hended
        rw [run_succ_of_ended hended', calls_succ_of_ended hended', hsame, hcalls]
        exact ⟨rfl, rfl⟩

/-- A run that starves comes to an instruction that reads, with an exhausted input. -/
theorem exists_starving_step {limit : Nat}
    (h : Starves (machine.calls limit console) console.streams) :
    ∃ count next later instruction, count < limit ∧
      machine.run count console = ⟨.advanced, next, later⟩ ∧
      ¬ Starves (machine.calls count console) console.streams ∧
      next.Awaits instruction later := by
  induction limit generalizing machine console with
  | zero => exact absurd h (not_starves_nil _)
  | succ limit ih =>
    by_cases hfirst : Starves (machine.stepCalls console) console.streams
    · obtain ⟨instruction, hawaits⟩ := starves_stepCalls_iff.mp hfirst
      exact ⟨0, machine, console, instruction, Nat.succ_pos limit, rfl, not_starves_nil _, hawaits⟩
    · have hstreams := machine.streams_step console
      cases hstep : machine.step console with
      | mk reply middle between =>
        rw [hstep] at hstreams
        by_cases hreply : reply = .advanced
        · subst hreply
          rw [calls_succ_of_advanced hstep, starves_append, ← hstreams] at h
          obtain ⟨count, next, later, instruction, hlt, hrun, hcalls, hawaits⟩ :=
            ih (h.resolve_left hfirst)
          refine ⟨count + 1, next, later, instruction, Nat.succ_lt_succ hlt, ?_, ?_, hawaits⟩
          · rw [run_succ_of_advanced hstep, hrun]
          · rw [calls_succ_of_advanced hstep, starves_append, ← hstreams, not_or]
            exact ⟨hfirst, hcalls⟩
        · rw [calls_succ_of_ended (by rw [hstep]; exact hreply)] at h
          exact absurd h hfirst

/-! ## What a run depends on -/

/-- A machine that reads from an exhausted input is at fault. -/
theorem Awaits.reply_step {instruction : Instruction} (h : machine.Awaits instruction console) :
    (machine.step console).reply =
      .raised (.fault ⟨machine.program.file, instruction, .io .exhausted⟩) := by
  rw [step_of_input h.next h.op, PatternedInput.readByte_of_exhausted h.exhausted]
  rfl

/-- If there are more bytes, it goes on with the first of them. -/
theorem Awaits.step_supplied {instruction : Instruction} (h : machine.Awaits instruction console)
    (byte : UInt8) (rest : List UInt8) :
    ∃ later, machine.step (console.supplied (byte :: rest)) =
        ⟨.advanced, machine.goTo (machine.tape.write (machine.cell.fromByte byte.toNat))
          (machine.pc + 1), later⟩ ∧
      later.streams = ({ console.input with
        remaining := rest
        reads := console.input.reads + 1
        consumed := console.input.consumed + 1 }, console.output) := by
  have hread : InputStream.readByte (console.supplied (byte :: rest)).input = _ :=
    PatternedInput.readByte_supplied_of_exhausted h.exhausted byte rest
  rw [step_of_input h.next h.op, hread]
  exact ⟨_, rfl, by simp [Console.streams]; rfl⟩

/-- What a run of at most `limit` steps depends on. -/
structure Causal (limit : Nat) (machine : Machine) (console : Console PatternedInput ο) :
    Prop where
  /-- Unless it starves, all that it does is the same with any bytes that begin with those it
  consumes: its outcome, down to the counts of both streams, and its calls. -/
  same : ¬ Starves (machine.calls limit console) console.streams →
    ∀ data, data.take (console.consumedBy (machine.run limit console).console) =
        console.input.remaining.take (console.consumedBy (machine.run limit console).console) →
      machine.run limit (console.supplied data) = (machine.run limit console).supplied
          (data.drop (console.consumedBy (machine.run limit console).console)) ∧
        machine.calls limit (console.supplied data) = machine.calls limit console
  /-- If it starves, it ends with the step that does. With more bytes it comes to the same step,
  with the same machine and output, and stores the next byte. -/
  resumed : Starves (machine.calls limit console) console.streams →
    ∃ count before between instruction, machine.run count console = ⟨.advanced, before, between⟩ ∧
      before.Awaits instruction between ∧
      machine.run limit console = before.step between ∧
      (before.step between).reply =
        .raised (.fault ⟨before.program.file, instruction, .io .exhausted⟩) ∧
      ∀ byte rest,
        machine.run count (console.extended (byte :: rest)) =
          ⟨.advanced, before, between.supplied (byte :: rest)⟩ ∧
        ∃ later, before.step (between.supplied (byte :: rest)) =
            ⟨.advanced, before.goTo (before.tape.write (before.cell.fromByte byte.toNat))
              (before.pc + 1), later⟩ ∧
          later.streams = ({ between.input with
            remaining := rest
            reads := between.input.reads + 1
            consumed := between.input.consumed + 1 }, between.output)

/-- A run depends on the input that it has consumed. -/
theorem causal (limit : Nat) (machine : Machine) (console : Console PatternedInput ο) :
    machine.Causal limit console where
  same := by
    intro hfed data hdata
    obtain ⟨used, hgives, hsame⟩ := exists_run_supplied hfed
    have hused : data.take _ = used := hdata.trans hgives.eq_take
    have hrest := hsame (data.drop (console.consumedBy (machine.run limit console).console))
    rwa [← hused, List.take_append_drop] at hrest
  resumed := by
    intro hstarves
    obtain ⟨count, before, between, instruction, hlt, hrun, hfed, hawaits⟩ :=
      exists_starving_step hstarves
    refine ⟨count, before, between, instruction, hrun, hawaits, ?_, hawaits.reply_step, ?_⟩
    · obtain ⟨more, rfl⟩ := Nat.exists_eq_add_of_lt hlt
      rw [Nat.add_assoc, run_add hrun, run_succ_of_ended]
      rw [hawaits.reply_step]
      nofun
    · intro byte rest
      refine ⟨?_, hawaits.step_supplied byte rest⟩
      -- all bytes have been consumed when the input is exhausted
      obtain ⟨used, hgives, hsame⟩ := exists_run_supplied hfed
      have hused : console.input.remaining = used := by
        rw [hgives.remaining, hrun, hawaits.exhausted.ended, List.append_nil]
      rw [Console.extended, hused, (hsame _).1, hrun]
      rfl

end Machine

end Brainfuck
