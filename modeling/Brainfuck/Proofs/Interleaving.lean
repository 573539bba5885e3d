import Brainfuck.Proofs.Events

/-! # Machines that share a program and a console

The commands of a session are performed in any order. What the commands for one machine come to does
not depend on those for the others, if the program reads nothing and no output ever fails; nor does
it depend on whether steps are traced, if all of them can be. Both are cases of one argument: a step
cannot tell two consoles apart whose streams answer its calls alike.

Main definitions: `OutputStream.NeverFails`, `LinkedProgram.ReadsNothing`, `Act`,
`Session.actsOf`. Main statements: leaving out commands that change nothing for the kept ones
(`Session.actsOf_filter`), with its two cases `Session.Sharing.actsOf_isFeltBy` and
`Session.Alike.actsOf_isUntraced`. -/

namespace Brainfuck

variable {ι ο : Type}

/-! ## Streams that answer alike -/

section Answers

variable [InputStream ι] [OutputStream ο]

/-- An operation whose call is answered alike at other streams has the same effect there. -/
theorem Primitive.Effect.of_answers {rules : Rules} {instruction : Instruction}
    {operation : Primitive} {error : Option RunError} {world after : World ι ο}
    (h : operation.Effect rules instruction world error after) {input : ι} {output : ο}
    (hread : operation = .input →
      (InputStream.readByte world.input).1 = (InputStream.readByte input).1)
    (hwrite : operation = .output →
      (OutputStream.writeByte (rules.cell.toByte world.tape.current) world.output).1 =
        (OutputStream.writeByte (rules.cell.toByte world.tape.current) output).1) :
    ∃ after', operation.Effect rules instruction { world with input, output } error after' ∧
      after'.tape = after.tape := by
  -- the stream that was called may be left in another state, nothing else is different
  have hwritten {result : Except Failure Unit} {last : ο} (hop : operation = .output)
      (reply : OutputStream.writeByte (rules.cell.toByte world.tape.current) world.output =
        (result, last)) :
      OutputStream.writeByte (rules.cell.toByte world.tape.current) output =
        (result, (OutputStream.writeByte (rules.cell.toByte world.tape.current) output).2) := by
    have hanswer := hwrite hop
    rw [reply] at hanswer
    exact Prod.ext hanswer.symm rfl
  have hgiven {result : Except Failure UInt8} {last : ι} (hop : operation = .input)
      (reply : InputStream.readByte world.input = (result, last)) :
      InputStream.readByte input = (result, (InputStream.readByte input).2) := by
    have hanswer := hread hop
    rw [reply] at hanswer
    exact Prod.ext hanswer.symm rfl
  cases h with
  | right inside => exact ⟨_, .right inside, rfl⟩
  | grow last mayGrow => exact ⟨_, .grow last mayGrow, rfl⟩
  | tooHigh last fixed => exact ⟨_, .tooHigh last fixed, rfl⟩
  | left inside => exact ⟨_, .left inside, rfl⟩
  | tooLow first => exact ⟨_, .tooLow first, rfl⟩
  | add => exact ⟨_, .add, rfl⟩
  | sub => exact ⟨_, .sub, rfl⟩
  | output reply => exact ⟨_, .output (hwritten rfl reply), rfl⟩
  | outputFault reply blamed => exact ⟨_, .outputFault (hwritten rfl reply) blamed, rfl⟩
  | outputFailure reply passed => exact ⟨_, .outputFailure (hwritten rfl reply) passed, rfl⟩
  | input reply => exact ⟨_, .input (hgiven rfl reply), rfl⟩
  | inputFault reply blamed => exact ⟨_, .inputFault (hgiven rfl reply) blamed, rfl⟩
  | inputFailure reply passed => exact ⟨_, .inputFailure (hgiven rfl reply) passed, rfl⟩

namespace Machine

/-- Two consoles answer the call that the next instruction of a machine makes alike, if it makes
any. -/
structure AnsweredAlike (machine : Machine) (console other : Console ι ο) : Prop where
  /-- A read gets the same answer. -/
  read : machine.NextIs .input →
    (InputStream.readByte console.input).1 = (InputStream.readByte other.input).1
  /-- Writing the current cell gets the same answer. -/
  written : machine.NextIs .output →
    (OutputStream.writeByte (machine.cell.toByte machine.tape.current) console.output).1 =
      (OutputStream.writeByte (machine.cell.toByte machine.tape.current) other.output).1
  /-- It makes the same calls. -/
  calls : machine.NextIs .output →
    writeCalls (machine.cell.toByte machine.tape.current) console.output =
      writeCalls (machine.cell.toByte machine.tape.current) other.output

variable {machine : Machine} {console other : Console ι ο}

/-- Two consoles are not told apart by the next step of a machine, before it is traced. -/
structure SteppedAlike (machine : Machine) (console other : Console ι ο) : Prop where
  /-- The step comes to the same. -/
  reply : (machine.step console).reply = (machine.step other).reply
  /-- It leaves the same machine. -/
  after : (machine.step console).machine = (machine.step other).machine
  /-- It makes the same calls. -/
  calls : machine.stepCalls console = machine.stepCalls other

/-- The same event is observed if the traced steps come to the same. -/
theorem SteppedAlike.stepEvent_eq (h : machine.SteppedAlike console other)
    (hreply : (machine.stepTraced console).reply = (machine.stepTraced other).reply) :
    machine.stepEvent console = machine.stepEvent other := by
  rw [stepEvent, stepEvent, hreply, machine_stepTraced, machine_stepTraced, h.after, h.calls]

/-- A step cannot tell apart consoles that answer its call alike. -/
theorem AnsweredAlike.steppedAlike (h : machine.AnsweredAlike console other) :
    machine.SteppedAlike console other := by
  have hcalls : machine.stepCalls console = machine.stepCalls other := by
    unfold stepCalls
    split
    next instruction next =>
      split
      next => rfl
      next op => exact h.calls ⟨instruction, next, op⟩
      next => rfl
    next => rfl
  -- an operation that makes a call gets the same answer, and no other one looks at the console
  have hanswers {instruction : Instruction} {operation : Primitive} {error : Option RunError}
      {after : World ι ο} (next : machine.next? = some (.plain instruction))
      (op : instruction.op = operation.op)
      (effect : operation.Effect machine.rules instruction (machine.world console) error after) :
      ∃ after', operation.Effect machine.rules instruction (machine.world other) error after' ∧
        after'.tape = after.tape := by
    apply effect.of_answers
    · rintro rfl
      exact h.read ⟨instruction, next, op⟩
    · rintro rfl
      exact h.written ⟨instruction, next, op⟩
  suffices hsame : (machine.step console).reply = (machine.step other).reply ∧
      (machine.step console).machine = (machine.step other).machine from
    ⟨hsame.1, hsame.2, hcalls⟩
  have hstepped := machine.stepped_step console
  generalize machine.step console = outcome at hstepped
  cases hstepped with
  | finished ended =>
    rw [step_of_next?_eq_none ended]
    exact ⟨rfl, rfl⟩
  | completed next op effect =>
    obtain ⟨after', heffect, htape⟩ := hanswers next op effect
    rw [step_of_effect next op heffect, htape]
    exact ⟨rfl, rfl⟩
  | raised next op effect =>
    obtain ⟨after', heffect, -⟩ := hanswers next op effect
    rw [step_of_effect_raised next op heffect]
    exact ⟨rfl, rfl⟩
  | skipped next zero =>
    rw [step_of_opener_zero next zero]
    exact ⟨rfl, rfl⟩
  | entered next nonzero =>
    rw [step_of_opener_nonzero next nonzero]
    exact ⟨rfl, rfl⟩
  | returned next =>
    rw [step_of_closer next]
    exact ⟨rfl, rfl⟩
  | passed next bracket =>
    rw [step_of_unlinked next bracket]
    exact ⟨rfl, rfl⟩

/-- Consoles with the same streams, be they traced or not. -/
def SameStreams (_ : Machine) (console other : Console ι ο) : Prop :=
  console.streams = other.streams

/-- No step that can be shown can tell apart consoles with the same streams. -/
theorem indifferent_sameStreams :
    Indifferent StepEvent.Showable (SameStreams (ι := ι) (ο := ο)) := by
  intro machine console other h hshowable
  have hinput : console.input = other.input := congrArg Prod.fst h
  have houtput : console.output = other.output := congrArg Prod.snd h
  have hstepped : machine.SteppedAlike console other :=
    AnsweredAlike.steppedAlike ⟨fun _ => by rw [hinput], fun _ => by rw [houtput],
      fun _ => by rw [houtput]⟩
  -- whichever of the two is traced, the trace can be printed
  have htold : ¬ machine.Untraceable console := by
    intro huntraceable
    apply stepText?_ne_none_of_showable hshowable (hstepped.reply ▸ huntraceable.executed)
    rw [stepText?, ← hstepped.after]
    exact huntraceable.overlong
  have htold' : ¬ machine.Untraceable other := fun huntraceable =>
    stepText?_ne_none_of_showable hshowable huntraceable.executed huntraceable.overlong
  refine ⟨hstepped.stepEvent_eq ?_, ?_⟩
  · rw [reply_stepTraced htold, reply_stepTraced htold', hstepped.reply]
  · show (machine.stepTraced console).console.streams = (machine.stepTraced other).console.streams
    rw [streams_stepTraced, streams_stepTraced, streams_step, streams_step, hstepped.calls,
      show console.streams = other.streams from h]

end Machine

end Answers

/-! ## Outputs that never fail -/

/-- An output never fails: it is in a state in which a write is accepted and a flush is done, and
every call leaves it in such a state. -/
def OutputStream.NeverFails [OutputStream ο] (output : ο) : Prop :=
  ∃ sound : ο → Prop, sound output ∧ ∀ state, sound state →
    (∀ byte, (write byte state).1 = .accepted ∧ sound (write byte state).2) ∧
      (flush state).1 = .done ∧ sound (flush state).2

namespace OutputStream.NeverFails

variable [OutputStream ο] {output : ο}

/-- A write is accepted, and the output still never fails. -/
theorem write (h : NeverFails output) (byte : UInt8) :
    (OutputStream.write byte output).1 = .accepted ∧
      NeverFails (OutputStream.write byte output).2 := by
  obtain ⟨sound, hsound, hcalls⟩ := h
  obtain ⟨haccepted, hafter⟩ := (hcalls output hsound).1 byte
  exact ⟨haccepted, sound, hafter, hcalls⟩

/-- A flush is done, and the output still never fails. -/
theorem flush (h : NeverFails output) :
    (OutputStream.flush output).1 = .done ∧ NeverFails (OutputStream.flush output).2 := by
  obtain ⟨sound, hsound, hcalls⟩ := h
  obtain ⟨-, hdone, hafter⟩ := hcalls output hsound
  exact ⟨hdone, sound, hafter, hcalls⟩

/-- A byte is written and flushed. -/
theorem writeByte (h : NeverFails output) {value : Int} (hvalue : 0 ≤ value ∧ value < 256) :
    (OutputStream.writeByte value output).1 = .ok () ∧
      writeCalls value output = [.write (UInt8.ofNat value.toNat), .flush] := by
  rw [OutputStream.writeByte, writeCalls, if_pos hvalue, if_pos hvalue]
  obtain ⟨haccepted, hafter⟩ := h.write (UInt8.ofNat value.toNat)
  obtain ⟨hdone, -⟩ := hafter.flush
  cases hwrite : OutputStream.write (UInt8.ofNat value.toNat) output with
  | mk reply written =>
    rw [hwrite] at haccepted hdone
    obtain rfl : reply = .accepted := haccepted
    cases hflush : OutputStream.flush written with
    | mk reply flushed =>
      rw [hflush] at hdone
      obtain rfl : reply = .done := hdone
      simp only [hflush, and_self]

/-- Whatever calls are made, the output still never fails. -/
theorem replay [InputStream ι] (h : NeverFails output) (calls : List StreamCall) (input : ι) :
    NeverFails (Brainfuck.replay calls (input, output)).2 := by
  induction calls generalizing input output with
  | nil => exact h
  | cons call rest ih =>
    cases call with
    | read => exact ih h _
    | write byte => exact ih (h.write byte).2 _
    | flush => exact ih h.flush.2 _

end OutputStream.NeverFails

/-- A scripted output without an outage never fails. -/
theorem ScriptedOutput.neverFails {output : ScriptedOutput} (h : output.outage = none) :
    OutputStream.NeverFails output := by
  refine ⟨fun state => state.outage = none, h, ?_⟩
  intro state hstate
  have hwrite (byte : UInt8) : OutputStream.write byte state = state.write byte := rfl
  have hflush : OutputStream.flush state = state.flush := rfl
  simp only [hwrite, hflush, write, flush, nextFailure?, hstate]
  exact ⟨fun _ => ⟨trivial, trivial⟩, trivial, trivial⟩

/-- No instruction of a program reads. -/
def LinkedProgram.ReadsNothing (program : LinkedProgram) : Prop :=
  ∀ linked ∈ program.instructions, linked.op ≠ .input

namespace Machine

variable [InputStream ι] [OutputStream ο]

/-- A machine whose program reads nothing, at consoles that are traced alike and whose outputs never
fail. -/
structure Unaffected (machine : Machine) (console other : Console ι ο) : Prop where
  /-- The program reads nothing. -/
  reads : machine.program.ReadsNothing
  /-- The output never fails. -/
  output : OutputStream.NeverFails console.output
  /-- Neither does the other one. -/
  otherOutput : OutputStream.NeverFails other.output
  /-- Steps are traced at both or at neither. -/
  tracing : console.tracing = other.tracing

/-- A step keeps an output from failing. -/
theorem neverFails_stepTraced {machine : Machine} {console : Console ι ο}
    (h : OutputStream.NeverFails console.output) :
    OutputStream.NeverFails (machine.stepTraced console).console.output := by
  have hstreams := (machine.streams_stepTraced console).trans (machine.streams_step console)
  rw [show (machine.stepTraced console).console.output = _ from congrArg Prod.snd hstreams]
  exact h.replay _ console.input

/-- A machine whose program reads nothing cannot tell apart consoles whose outputs never fail. -/
theorem indifferent_unaffected :
    Indifferent (fun _ => True) (Unaffected (ι := ι) (ο := ο)) := by
  intro machine console other h _
  have hbyte := machine.cell.toByte_bounds machine.tape.current
  obtain ⟨hwritten, hcalls⟩ := h.output.writeByte hbyte
  obtain ⟨hwritten', hcalls'⟩ := h.otherOutput.writeByte hbyte
  have hstepped : machine.SteppedAlike console other := by
    apply AnsweredAlike.steppedAlike
    refine ⟨?_, fun _ => by rw [hwritten, hwritten'], fun _ => by rw [hcalls, hcalls']⟩
    -- there is no instruction that reads
    rintro ⟨instruction, hnext, hinput⟩
    exact absurd hinput (h.reads _ (Array.mem_of_getElem? hnext))
  constructor
  · exact hstepped.stepEvent_eq
      (reply_stepTraced_congr h.tracing hstepped.reply hstepped.after)
  · refine ⟨?_, neverFails_stepTraced h.output, neverFails_stepTraced h.otherOutput, ?_⟩
    · rw [machine_stepTraced, program_step]
      exact h.reads
    · rw [tracing_stepTraced, tracing_stepTraced, h.tracing]

end Machine

/-! ## What commands come to -/

/-- The report without its diagnostic text. -/
def Report.silent : Report → Report
  | .driven report => .driven { report with log := "" }
  | report => report

/-- What a command comes to, apart from diagnostic text. -/
structure Act where
  /-- Its report. -/
  report : Report
  /-- The steps that were made. -/
  events : List StepEvent
deriving DecidableEq

namespace Session

variable [InputStream ι] [OutputStream ο]

/-- The steps that a command makes. -/
def eventsOf (bound : Nat) (session : Session ι ο) : Command ι ο → List StepEvent
  | .drive number drive =>
    match session.machines[number]? with
    | some machine => (drive.follow bound machine session.console).1
    | none => []
  | _ => []

/-- What a command comes to in a session. -/
def act (bound : Nat) (session : Session ι ο) (command : Command ι ο) : Act :=
  ⟨(session.perform bound command).1.silent, session.eventsOf bound command⟩

/-- What the kept ones of some commands come to, while all of them are performed. -/
def actsOf (bound : Nat) (kept : Command ι ο → Bool) (session : Session ι ο) :
    List (Command ι ο) → List Act
  | [] => []
  | command :: rest =>
    let acts := actsOf bound kept (session.perform bound command).2 rest
    if kept command then session.act bound command :: acts else acts

section Performing

variable {bound number : Nat} {session : Session ι ο} {machine : Machine}

/-- Driving a machine. -/
theorem perform_drive (h : session.machines[number]? = some machine) (drive : Drive) :
    session.perform bound (.drive number drive) =
      (.driven (.ofEvents drive machine (drive.follow bound machine session.console).1
          (drive.follow bound machine session.console).2.log),
        { session with
          machines := session.machines.setIfInBounds number
            (StepEvent.lastMachine machine (drive.follow bound machine session.console).1)
          console := (drive.follow bound machine session.console).2 }) := by
  simp only [perform, h, driveMachine_eq]
  rfl

/-- Adjusting a machine. -/
theorem perform_adjust (h : session.machines[number]? = some machine) (mayGrow : Option Bool)
    (cell : Option CellSettings) :
    session.perform bound (.adjust number mayGrow cell) =
      (match (adjustMachine machine mayGrow cell).2 with
        | none => .settled (adjustMachine machine mayGrow cell).1
        | some error => .refused error,
        { session with
          machines := session.machines.setIfInBounds number
            (adjustMachine machine mayGrow cell).1 }) := by
  simp only [perform, h]
  split <;> simp_all

/-- Driving a machine at consoles that its steps cannot tell apart. -/
theorem act_drive_eq {sort : StepEvent → Prop} {alike : Machine → Console ι ο → Console ι ο → Prop}
    (hindifferent : Machine.Indifferent sort alike) {other : Session ι ο}
    (hmachine : session.machines[number]? = some machine)
    (hother : other.machines[number]? = some machine)
    (h : alike machine session.console.cleared other.console.cleared) (drive : Drive)
    (hsort : ∀ event ∈ other.eventsOf bound (.drive number drive), sort event) :
    session.act bound (.drive number drive) = other.act bound (.drive number drive) ∧
      ∃ next console console',
        (session.perform bound (.drive number drive)).2 =
          { session with machines := session.machines.setIfInBounds number next, console } ∧
        (other.perform bound (.drive number drive)).2 =
          { other with
            machines := other.machines.setIfInBounds number next
            console := console' } ∧
        alike next console console' := by
  simp only [eventsOf, hother] at hsort
  obtain ⟨hevents, halike⟩ := hindifferent.follow h drive.isWatched (drive.limit bound) hsort
  have hsame : (drive.follow bound machine session.console).1 =
      (drive.follow bound machine other.console).1 := hevents
  constructor
  · simp only [act, perform_drive hmachine, perform_drive hother, eventsOf, hmachine, hother, hsame]
    rfl
  · refine ⟨_, _, _, by rw [perform_drive hmachine]; rfl, ?_, halike⟩
    rw [perform_drive hother, ← hsame]
    rfl

/-- An adjusted machine runs the same program. -/
theorem program_adjustMachine (machine : Machine) (mayGrow : Option Bool)
    (cell : Option CellSettings) :
    (adjustMachine machine mayGrow cell).1.program = machine.program := by
  unfold adjustMachine
  split
  next => rfl
  next settings => split <;> rfl

/-- Adjusting the same machine in two sessions. -/
theorem act_adjust_eq {other : Session ι ο} (hmachine : session.machines[number]? = some machine)
    (hother : other.machines[number]? = some machine) (mayGrow : Option Bool)
    (cell : Option CellSettings) :
    session.act bound (.adjust number mayGrow cell) =
      other.act bound (.adjust number mayGrow cell) := by
  simp only [act, perform_adjust hmachine, perform_adjust hother, eventsOf]

end Performing

/-! ## Leaving out commands -/

/-- Commands that change nothing for the kept ones can be left out, if the steps that the kept ones
make without them are of the sort that they keep related. -/
theorem actsOf_filter {bound : Nat} {kept : Command ι ο → Bool} {sort : StepEvent → Prop}
    {related : Session ι ο → Session ι ο → Prop} {commands : List (Command ι ο)}
    (hkept : ∀ command ∈ commands, kept command = true → ∀ session other,
      related session other → (∀ event ∈ other.eventsOf bound command, sort event) →
        session.act bound command = other.act bound command ∧
          related (session.perform bound command).2 (other.perform bound command).2)
    (hleft : ∀ command ∈ commands, kept command = false → ∀ session other,
      related session other → related (session.perform bound command).2 other)
    {session other : Session ι ο} (h : related session other)
    (hsort : ∀ act ∈ other.actsOf bound kept (commands.filter kept), ∀ event ∈ act.events,
      sort event) :
    session.actsOf bound kept commands = other.actsOf bound kept (commands.filter kept) ∧
      related (session.performAll bound commands).2
        (other.performAll bound (commands.filter kept)).2 := by
  induction commands generalizing session other with
  | nil => exact ⟨rfl, h⟩
  | cons command rest ih =>
    have hrest := @ih
      (fun later hlater => hkept later (List.mem_cons_of_mem command hlater))
      (fun later hlater => hleft later (List.mem_cons_of_mem command hlater))
    cases hcommand : kept command with
    | true =>
      rw [List.filter_cons_of_pos hcommand] at hsort ⊢
      simp only [actsOf, hcommand, if_true, List.forall_mem_cons] at hsort
      obtain ⟨hact, hafter⟩ := hkept command List.mem_cons_self hcommand session other h hsort.1
      obtain ⟨hacts, hlast⟩ := hrest hafter hsort.2
      simp only [actsOf, hcommand, if_true]
      exact ⟨by rw [hact, hacts], hlast⟩
    | false =>
      -- a command that is left out is performed in the first session only
      have hafter := hleft command List.mem_cons_self hcommand session other h
      rw [List.filter_cons_of_neg (by simp [hcommand])] at hsort ⊢
      obtain ⟨hacts, hlast⟩ := hrest hafter hsort
      simp only [actsOf, hcommand, Bool.false_eq_true, if_false]
      exact ⟨hacts, hlast⟩

end Session

/-! ## Leaving out the commands for other machines -/

/-- Whether a command is felt by the machine of a number: it is for that machine, or begins or stops
the tracing of all. -/
def Command.isFeltBy (number : Nat) : Command ι ο → Bool
  | .adjust target _ _ => target = number
  | .drive target _ => target = number
  | .setTracing _ => true
  | _ => false

namespace Session

variable [InputStream ι] [OutputStream ο] {bound number : Nat} {session other : Session ι ο}

/-- Putting a machine in its place. -/
theorem getElem?_setIfInBounds_of_some {machines : Array Machine} {machine : Machine}
    (h : machines[number]? = some machine) (next : Machine) :
    (machines.setIfInBounds number next)[number]? = some next := by
  obtain ⟨hbound, -⟩ := Array.getElem?_eq_some_iff.mp h
  simp [hbound]

/-- A command for another machine, or for none, leaves a machine as it was. -/
theorem getElem?_perform {command : Command ι ο} (h : command.isFeltBy number = false)
    {machine : Machine} (hmachine : session.machines[number]? = some machine) :
    (session.perform bound command).2.machines[number]? = some machine := by
  obtain ⟨hbound, -⟩ := Array.getElem?_eq_some_iff.mp hmachine
  have hother {target : Nat} (htarget : target ≠ number) (next : Machine) :
      (session.machines.setIfInBounds target next)[number]? = some machine := by
    simp [htarget, hmachine]
  cases command with
  | create settings =>
    rw [perform]
    split
    next created _ => simp [Array.getElem?_push, Nat.ne_of_lt hbound, hmachine]
    next => exact hmachine
  | attachInput input => exact hmachine
  | attachOutput output => exact hmachine
  | setTracing on => exact hmachine
  | adjust target mayGrow cell =>
    cases htarget : session.machines[target]? with
    | none => simpa only [perform, htarget] using hmachine
    | some old =>
      rw [perform_adjust htarget]
      exact hother (of_decide_eq_false h) _
  | drive target drive =>
    cases htarget : session.machines[target]? with
    | none => simpa only [perform, htarget] using hmachine
    | some old =>
      rw [perform_drive htarget]
      exact hother (of_decide_eq_false h) _

/-- No command makes an output fail, unless it attaches one that does. -/
theorem neverFails_perform {command : Command ι ο}
    (hattached : ∀ output, command = .attachOutput output → OutputStream.NeverFails output)
    (h : OutputStream.NeverFails session.console.output) :
    OutputStream.NeverFails (session.perform bound command).2.console.output := by
  cases command with
  | create settings =>
    rw [perform]
    split <;> exact h
  | attachInput input => exact h
  | attachOutput output => exact hattached output rfl
  | setTracing on => exact h
  | adjust target mayGrow cell =>
    cases htarget : session.machines[target]? with
    | none => simpa only [perform, htarget] using h
    | some old => rwa [perform_adjust htarget]
  | drive target drive =>
    cases htarget : session.machines[target]? with
    | none => simpa only [perform, htarget] using h
    | some machine =>
      rw [perform_drive htarget]
      have hstreams :=
        machine.streams_follow drive.isWatched (drive.limit bound) session.console.cleared
      show OutputStream.NeverFails (drive.follow bound machine session.console).2.streams.2
      rw [Drive.follow, hstreams]
      exact h.replay _ session.console.input

/-- Only a command for tracing begins or stops it. -/
theorem tracing_perform {command : Command ι ο} (h : ∀ on, command ≠ .setTracing on) :
    (session.perform bound command).2.console.tracing = session.console.tracing := by
  cases command with
  | create settings =>
    rw [perform]
    split <;> rfl
  | attachInput input => rfl
  | attachOutput output => rfl
  | setTracing on => exact absurd rfl (h on)
  | adjust target mayGrow cell =>
    cases htarget : session.machines[target]? with
    | none => simp only [perform, htarget]
    | some old => rw [perform_adjust htarget]
  | drive target drive =>
    cases htarget : session.machines[target]? with
    | none => simp only [perform, htarget]
    | some machine =>
      rw [perform_drive htarget]
      exact machine.tracing_follow _ _ _

/-- Two sessions hold the same machine under a number, its program reads nothing, their outputs
never fail, and they are traced alike. -/
def Sharing (number : Nat) (session other : Session ι ο) : Prop :=
  ∃ machine, session.machines[number]? = some machine ∧
    other.machines[number]? = some machine ∧ machine.Unaffected session.console other.console

/-- A command that the machine feels comes to the same in both sessions. -/
theorem Sharing.kept (h : Sharing number session other) {command : Command ι ο}
    (hcommand : command.isFeltBy number = true) :
    session.act bound command = other.act bound command ∧
      Sharing number (session.perform bound command).2 (other.perform bound command).2 := by
  obtain ⟨machine, hmachine, hother, haffected⟩ := h
  cases command with
  | adjust target mayGrow cell =>
    obtain rfl : target = number := of_decide_eq_true hcommand
    refine ⟨act_adjust_eq hmachine hother mayGrow cell, (adjustMachine machine mayGrow cell).1, ?_,
      ?_, ?_⟩
    · rw [perform_adjust hmachine]
      exact getElem?_setIfInBounds_of_some hmachine _
    · rw [perform_adjust hother]
      exact getElem?_setIfInBounds_of_some hother _
    · rw [perform_adjust hmachine, perform_adjust hother]
      refine ⟨?_, haffected.output, haffected.otherOutput, haffected.tracing⟩
      rw [program_adjustMachine]
      exact haffected.reads
  | drive target drive =>
    obtain rfl : target = number := of_decide_eq_true hcommand
    have hcleared : machine.Unaffected session.console.cleared other.console.cleared :=
      ⟨haffected.reads, haffected.output, haffected.otherOutput, haffected.tracing⟩
    obtain ⟨hact, next, console, console', hsession, hother', hnext⟩ :=
      act_drive_eq Machine.indifferent_unaffected hmachine hother hcleared drive
        (fun _ _ => trivial)
    rw [hsession, hother']
    exact ⟨hact, next, getElem?_setIfInBounds_of_some hmachine next,
      getElem?_setIfInBounds_of_some hother next, hnext⟩
  | setTracing on =>
    exact ⟨rfl, machine, hmachine, hother, haffected.reads, haffected.output,
      haffected.otherOutput, rfl⟩
  | _ => cases hcommand

/-- A command for another machine, or for none, can be left out. -/
theorem Sharing.left (h : Sharing number session other) {command : Command ι ο}
    (hcommand : command.isFeltBy number = false)
    (hattached : ∀ output, command = .attachOutput output → OutputStream.NeverFails output) :
    Sharing number (session.perform bound command).2 other := by
  obtain ⟨machine, hmachine, hother, haffected⟩ := h
  have htracing : (session.perform bound command).2.console.tracing = session.console.tracing := by
    apply tracing_perform
    rintro on rfl
    cases hcommand
  exact ⟨machine, getElem?_perform hcommand hmachine, hother, haffected.reads,
    neverFails_perform hattached haffected.output, haffected.otherOutput,
    htracing.trans haffected.tracing⟩

/-- What the commands for a machine come to does not depend on the others. -/
theorem Sharing.actsOf_isFeltBy (h : Sharing number session other) (bound : Nat)
    {commands : List (Command ι ο)}
    (hattached : ∀ output, .attachOutput output ∈ commands → OutputStream.NeverFails output) :
    session.actsOf bound (Command.isFeltBy number) commands =
        other.actsOf bound (Command.isFeltBy number) (commands.filter (Command.isFeltBy number)) ∧
      Sharing number (session.performAll bound commands).2
        (other.performAll bound (commands.filter (Command.isFeltBy number))).2 := by
  refine actsOf_filter ?_ ?_ h (fun _ _ _ _ => trivial)
  · intro command _ hcommand session other hsharing _
    exact hsharing.kept hcommand
  · intro command hmember hcommand session other hsharing
    apply hsharing.left hcommand
    rintro output rfl
    exact hattached output hmember

end Session

/-! ## Leaving out the commands that begin and stop tracing -/

/-- Whether a command neither begins nor stops tracing. -/
def Command.isUntraced : Command ι ο → Bool
  | .setTracing _ => false
  | _ => true

namespace Session

variable [InputStream ι] [OutputStream ο] {bound : Nat} {session other : Session ι ο}

/-- Two sessions are the same but for tracing. -/
structure Alike (session other : Session ι ο) : Prop where
  /-- The program is the same. -/
  program : session.program = other.program
  /-- The machines are the same. -/
  machines : session.machines = other.machines
  /-- The streams are the same. -/
  streams : session.console.streams = other.console.streams

/-- Any other command comes to the same in both sessions, if its steps can be shown. -/
theorem Alike.kept (h : session.Alike other) {command : Command ι ο}
    (hcommand : command.isUntraced = true)
    (hshowable : ∀ event ∈ other.eventsOf bound command, event.Showable) :
    session.act bound command = other.act bound command ∧
      (session.perform bound command).2.Alike (other.perform bound command).2 := by
  have hinput : session.console.input = other.console.input := congrArg Prod.fst h.streams
  have houtput : session.console.output = other.console.output := congrArg Prod.snd h.streams
  -- a drive begins with an empty log, so that only the streams have to be the same
  cases command with
  | create settings =>
    simp only [act, eventsOf, perform, ← h.program]
    split
    next machine _ => exact ⟨rfl, rfl, by rw [h.machines], h.streams⟩
    next error _ => exact ⟨rfl, h⟩
  | attachInput input =>
    refine ⟨rfl, h.program, h.machines, ?_⟩
    simp only [perform, Console.streams, houtput]
  | attachOutput output =>
    refine ⟨rfl, h.program, h.machines, ?_⟩
    simp only [perform, Console.streams, hinput]
  | setTracing on => cases hcommand
  | adjust target mayGrow cell =>
    cases hmachine : session.machines[target]? with
    | none =>
      have hother : other.machines[target]? = none := by rw [← h.machines, hmachine]
      simp only [act, eventsOf, perform, hmachine, hother, true_and]
      exact h
    | some machine =>
      have hother : other.machines[target]? = some machine := by rw [← h.machines, hmachine]
      refine ⟨act_adjust_eq hmachine hother mayGrow cell, ?_⟩
      rw [perform_adjust hmachine, perform_adjust hother]
      exact ⟨h.program, by rw [h.machines], h.streams⟩
  | drive target drive =>
    cases hmachine : session.machines[target]? with
    | none =>
      have hother : other.machines[target]? = none := by rw [← h.machines, hmachine]
      simp only [act, eventsOf, perform, hmachine, hother, true_and]
      exact h
    | some machine =>
      have hother : other.machines[target]? = some machine := by rw [← h.machines, hmachine]
      have hcleared : machine.SameStreams session.console.cleared other.console.cleared := h.streams
      obtain ⟨hact, next, console, console', hsession, hother', hnext⟩ :=
        act_drive_eq Machine.indifferent_sameStreams hmachine hother hcleared drive hshowable
      rw [hsession, hother']
      exact ⟨hact, h.program, by rw [h.machines], hnext⟩

/-- What commands come to does not depend on where tracing begins and stops, if all steps that they
make without it can be shown. -/
theorem Alike.actsOf_isUntraced (h : session.Alike other) (commands : List (Command ι ο))
    (hshowable : ∀ act ∈ other.actsOf bound Command.isUntraced
      (commands.filter Command.isUntraced), ∀ event ∈ act.events, event.Showable) :
    session.actsOf bound Command.isUntraced commands =
        other.actsOf bound Command.isUntraced (commands.filter Command.isUntraced) ∧
      (session.performAll bound commands).2.Alike
        (other.performAll bound (commands.filter Command.isUntraced)).2 := by
  refine actsOf_filter ?_ ?_ h hshowable
  · intro command _ hcommand session other halike hsteps
    exact halike.kept hcommand hsteps
  · intro command _ hcommand session other halike
    cases command with
    | setTracing on => exact ⟨halike.program, halike.machines, halike.streams⟩
    | _ => cases hcommand

end Session

end Brainfuck
