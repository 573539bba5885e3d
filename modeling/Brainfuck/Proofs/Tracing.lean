import Brainfuck.Proofs.Bounds
import Brainfuck.Proofs.Interleaving

/-! # Traces

The diagnostic text of a drive is told by its steps: where steps are traced, it is made of one block
for each step that executed an instruction and returned, in order, and a block shows the instruction
and where the machine is after it. A trace is read off the tape without ever missing it. It disturbs
nothing as long as all of its numbers can be written out; a step whose block cannot be is an error.

Main definitions: `StepEvent.block?`, `StepEvent.trace`, `Session.Undisturbed`. Main statements: the
trace of one step and of any number of them (`Machine.InBounds.log_stepTraced`,
`Machine.InBounds.log_follow`), which steps cannot be traced
(`Machine.InBounds.reply_stepEvent_eq_overlong_iff`), and that neither other machines nor a trace
disturb a machine (`Session.undisturbed_performAll`). -/

namespace Brainfuck

namespace StepEvent

/-- The block of a step that executed an instruction and returned. -/
def block? (event : StepEvent) : Option String :=
  if event.reply = .advanced then event.shown? else none

/-- The trace of some steps. -/
def trace (events : List StepEvent) : String := String.join (events.filterMap block?)

theorem block?_of_ne_advanced {event : StepEvent} (h : event.reply ≠ .advanced) :
    event.block? = none :=
  if_neg h

theorem trace_cons (event : StepEvent) (rest : List StepEvent) :
    trace (event :: rest) = event.block?.getD "" ++ trace rest := by
  unfold trace
  cases hblock : event.block? with
  | none => rw [List.filterMap_cons_none hblock, Option.getD_none, String.empty_append]
  | some text => rw [List.filterMap_cons_some hblock, String.join_cons, Option.getD_some]

theorem trace_singleton (event : StepEvent) : trace [event] = event.block?.getD "" := by
  rw [trace_cons]
  exact String.append_empty

end StepEvent

section Traced

variable {ι ο : Type}

namespace Console

/-- The trace of some steps, if they are traced at a console. -/
def traceOf (console : Console ι ο) (events : List StepEvent) : String :=
  if console.tracing then StepEvent.trace events else ""

theorem traceOf_cons (console : Console ι ο) (event : StepEvent) (rest : List StepEvent) :
    console.traceOf (event :: rest) = console.traceOf [event] ++ console.traceOf rest := by
  unfold traceOf
  split
  · rw [StepEvent.trace_cons, StepEvent.trace_singleton]
  · rfl

end Console

namespace Machine.InBounds

variable [InputStream ι] [OutputStream ο] {machine : Machine} {console : Console ι ο}
  {kinds : List CellKind}

/-- What can be shown of a step is its trace: the cell that it shows is there. -/
theorem shown?_stepEvent (h : machine.InBounds kinds) (console : Console ι ο) :
    (machine.stepEvent console).shown? = machine.stepText? console :=
  shown?_stepEvent_eq (h.stepsWithin console).shown

/-- Where steps are traced, a step has a block exactly if it executed an instruction and
returned. -/
theorem isSome_block?_stepEvent (h : machine.InBounds kinds) (htracing : console.tracing = true) :
    (machine.stepEvent console).block?.isSome = true ↔
      (machine.stepEvent console).reply = .advanced := by
  have hshown := h.shown?_stepEvent console
  have htraced := machine.traced_stepTraced console
  by_cases hreply : (machine.stepEvent console).reply = .advanced
  · rw [StepEvent.block?, if_pos hreply, hshown]
    simp only [hreply, iff_true]
    rw [stepEvent] at hreply
    generalize machine.stepTraced console = outcome at hreply htraced
    cases htraced with
    | silent hsilent =>
      rcases hsilent with hsilent | hsilent
      · cases htracing.symm.trans hsilent
      · exact absurd hreply hsilent
    | printed tracing fetched step written =>
      rw [stepText?, fetched, step, Option.bind_some, written]
      rfl
    | overlong tracing fetched step unwritten => cases hreply
  · rw [StepEvent.block?_of_ne_advanced hreply]
    simp [hreply]

/-- A step raises the error of a trace that cannot be printed exactly if it is traced, executes an
instruction, and cannot be shown. -/
theorem reply_stepEvent_eq_overlong_iff (h : machine.InBounds kinds) (console : Console ι ο) :
    (machine.stepEvent console).reply = .raised (.failure .overlong) ↔
      console.tracing = true ∧ (machine.stepEvent console).executed = true ∧
        (machine.stepEvent console).shown? = none := by
  rw [executed_stepEvent, h.shown?_stepEvent]
  show (machine.stepTraced console).reply = _ ↔ _
  rw [reply_stepTraced_eq_overlong_iff]
  constructor
  · rintro ⟨tracing, executed, overlong⟩
    exact ⟨tracing, executed, overlong⟩
  · rintro ⟨tracing, executed, overlong⟩
    exact ⟨tracing, executed, overlong⟩

/-- What is traced of a step is its block. -/
theorem log_stepTraced (h : machine.InBounds kinds) (console : Console ι ο) :
    (machine.stepTraced console).console.log =
      console.log ++ console.traceOf [machine.stepEvent console] := by
  have hreply : (machine.stepEvent console).reply = (machine.stepTraced console).reply := rfl
  rw [log_stepTraced_eq, printed, Console.traceOf, StepEvent.trace_singleton, StepEvent.block?,
    h.shown?_stepEvent, hreply]
  by_cases htracing : console.tracing = true
  · by_cases hadvanced : (machine.stepTraced console).reply = .advanced
    · rw [if_pos ⟨htracing, hadvanced⟩, if_pos htracing, if_pos hadvanced]
    · rw [if_neg (not_and_of_not_right _ hadvanced), if_neg hadvanced, Option.getD_none, ite_self]
  · rw [if_neg (not_and_of_not_left _ htracing), if_neg htracing]

/-- Each of any number of steps is one of a machine in bounds, at a console that is traced alike. -/
theorem exists_eq_stepEvent (h : machine.InBounds kinds) {watched : Bool} {limit : Nat}
    {event : StepEvent} (hevent : event ∈ (machine.follow watched limit console).1) :
    ∃ (before : Machine) (earlier : Console ι ο), before.InBounds kinds ∧
      earlier.tracing = console.tracing ∧ event = before.stepEvent earlier :=
  Machine.exists_eq_stepEvent (fun _ console hbounds => (hbounds.step console).1) h hevent

/-- What is traced of any number of steps is their trace. -/
theorem log_follow (h : machine.InBounds kinds) (watched : Bool) (limit : Nat)
    (console : Console ι ο) :
    (machine.follow watched limit console).2.log =
      console.log ++ console.traceOf (machine.follow watched limit console).1 := by
  induction limit generalizing machine console with
  | zero => simp [follow_zero, Console.traceOf, StepEvent.trace]
  | succ limit ih =>
    have hlog := h.log_stepTraced console
    cases hgoes : (machine.stepTraced console).reply.goesOn watched with
    | true =>
      have hnext : (machine.stepTraced console).machine.InBounds kinds := by
        rw [machine_stepTraced]
        exact (h.step console).1
      have htraced (events : List StepEvent) :
          (machine.stepTraced console).console.traceOf events = console.traceOf events := by
        rw [Console.traceOf, tracing_stepTraced]
        rfl
      rw [follow_succ_of_goesOn hgoes, Console.traceOf_cons, ← String.append_assoc, ← hlog,
        ← htraced]
      exact ih hnext _
    | false =>
      rw [follow_succ_of_stops hgoes]
      exact hlog

end Machine.InBounds

end Traced

/-! ## Machines that nothing disturbs -/

namespace Session

variable {ι ο : Type} [InputStream ι] [OutputStream ο]

/-- What neither other machines nor a trace disturb in a session, and what a trace says. -/
structure Undisturbed (bound : Nat) (session : Session ι ο) : Prop where
  /-- If the program reads nothing and no output ever fails, the commands that one machine feels
  come to what they come to without all the others, in this session or in any other one that holds
  the machine and is traced alike; and the machine ends up the same. -/
  separate : session.program.ReadsNothing → OutputStream.NeverFails session.console.output →
    ∀ (number : Nat) (machine : Machine) (alone : Session ι ο) (commands : List (Command ι ο)),
      session.machines[number]? = some machine → alone.machines[number]? = some machine →
      session.console.tracing = alone.console.tracing →
      OutputStream.NeverFails alone.console.output →
      (∀ output, .attachOutput output ∈ commands → OutputStream.NeverFails output) →
        session.actsOf bound (Command.isFeltBy number) commands =
            alone.actsOf bound (Command.isFeltBy number)
              (commands.filter (Command.isFeltBy number)) ∧
          ∃ last, (session.performAll bound commands).2.machines[number]? = some last ∧
            (alone.performAll bound
              (commands.filter (Command.isFeltBy number))).2.machines[number]? = some last
  /-- Commands that differ only in where tracing begins and stops come to the same, traced or not at
  the start, and leave the same machines and streams, if all the steps that they make without those
  commands can be shown. -/
  untraced : ∀ (on : Bool) (commands commands' : List (Command ι ο)),
    commands.filter Command.isUntraced = commands'.filter Command.isUntraced →
    (∀ act ∈ session.actsOf bound Command.isUntraced (commands.filter Command.isUntraced),
      ∀ event ∈ act.events, event.Showable) →
      session.actsOf bound Command.isUntraced commands =
          (session.perform bound (.setTracing on)).2.actsOf bound Command.isUntraced commands' ∧
        (session.performAll bound commands).2.Alike
          ((session.perform bound (.setTracing on)).2.performAll bound commands').2
  /-- The diagnostic text of a drive is the trace of its steps, if they are traced, and the steps
  with a block in it are those that executed an instruction and returned. -/
  traced : ∀ (number : Nat) (machine : Machine) (drive : Drive),
    session.machines[number]? = some machine →
      ∃ report, (session.perform bound (.drive number drive)).1 = .driven report ∧
        report.log = session.console.traceOf (session.eventsOf bound (.drive number drive)) ∧
        (session.console.tracing = true →
          ∀ event ∈ session.eventsOf bound (.drive number drive),
            event.block?.isSome = true ↔ event.reply = .advanced)
  /-- Tracing is the error of those traced steps only that executed an instruction and cannot be
  shown. -/
  unshown : ∀ (number : Nat) (drive : Drive),
    ∀ event ∈ session.eventsOf bound (.drive number drive),
      event.reply = .raised (.failure .overlong) ↔
        session.console.tracing = true ∧ event.executed = true ∧ event.shown? = none
  /-- The calls of its steps are all that a drive does to the streams. -/
  called : ∀ (number : Nat) (drive : Drive),
    (session.perform bound (.drive number drive)).2.console.streams =
      replay ((session.eventsOf bound (.drive number drive)).flatMap (·.calls))
        session.console.streams

variable {bound number : Nat} {session : Session ι ο} {machine : Machine}

/-- The steps of a drive are those of the machine. -/
theorem eventsOf_drive (h : session.machines[number]? = some machine) (drive : Drive) :
    session.eventsOf bound (.drive number drive) =
      (machine.follow drive.isWatched (drive.limit bound) session.console.cleared).1 := by
  simp only [eventsOf, h]
  rfl

/-- What a drive traces. -/
theorem log_perform_drive {kinds : List CellKind}
    (h : session.machines[number]? = some machine) (hbounds : machine.InBounds kinds)
    (drive : Drive) :
    ∃ report, (session.perform bound (.drive number drive)).1 = .driven report ∧
      report.log = session.console.traceOf (session.eventsOf bound (.drive number drive)) := by
  have hlog := hbounds.log_follow drive.isWatched (drive.limit bound) session.console.cleared
  rw [perform_drive h, eventsOf_drive h]
  exact ⟨_, rfl, hlog.trans String.empty_append⟩

/-- What a drive does to the streams. -/
theorem streams_perform_drive (bound number : Nat) (session : Session ι ο) (drive : Drive) :
    (session.perform bound (.drive number drive)).2.console.streams =
      replay ((session.eventsOf bound (.drive number drive)).flatMap (·.calls))
        session.console.streams := by
  cases h : session.machines[number]? with
  | none =>
    simp only [perform, eventsOf, h]
    rfl
  | some machine =>
    simp only [perform_drive h, eventsOf, h]
    exact machine.streams_follow drive.isWatched (drive.limit bound) session.console.cleared

/-- Whatever a session has done with the machines of a linked program: neither the other machines
nor a trace disturb them, and the trace is told by the steps. -/
theorem undisturbed_performAll {source : Program} {program : LinkedProgram}
    (hlink : source.link = .ok program) (bound : Nat) (console : Console ι ο)
    (setup : List (Command ι ο)) :
    (performAll bound ⟨program, #[], console⟩ setup).2.Undisturbed bound := by
  have hjumps := (Program.paired_of_link_eq_ok hlink).jumpsInside
  have hinBounds {number : Nat} {machine : Machine}
      (h : (performAll bound ⟨program, #[], console⟩ setup).2.machines[number]? = some machine) :
      ∃ kinds, machine.InBounds kinds ∧ machine.program = program := by
    obtain ⟨held, -, hreached⟩ := reached_performAll h
    exact ⟨held, hreached.inBounds hjumps⟩
  have hprogram : (performAll bound ⟨program, #[], console⟩ setup).2.program = program :=
    program_performAll setup
  generalize (performAll bound ⟨program, #[], console⟩ setup).2 = session at hinBounds hprogram
  have halike : session.Alike session := ⟨rfl, rfl, rfl⟩
  constructor
  case separate =>
    intro hreads houtput number machine alone commands hmachine halone htracing hother hattached
    obtain ⟨kinds, -, hruns⟩ := hinBounds hmachine
    have hsharing : Sharing number session alone := by
      refine ⟨machine, hmachine, halone, ?_, houtput, hother, htracing⟩
      rw [hruns, ← hprogram]
      exact hreads
    obtain ⟨hacts, last, hlast, hlast', -⟩ := hsharing.actsOf_isFeltBy bound hattached
    exact ⟨hacts, last, hlast, hlast'⟩
  case untraced =>
    intro on commands commands' hsame hshowable
    have htraced : (session.perform bound (.setTracing on)).2.Alike session := ⟨rfl, rfl, rfl⟩
    -- both are compared with the session that has no command for tracing
    obtain ⟨hacts, hlast⟩ := halike.actsOf_isUntraced commands hshowable
    obtain ⟨hacts', hlast'⟩ := htraced.actsOf_isUntraced commands' (hsame ▸ hshowable)
    rw [← hsame] at hacts' hlast'
    exact ⟨hacts.trans hacts'.symm, hlast.program.trans hlast'.program.symm,
      hlast.machines.trans hlast'.machines.symm, hlast.streams.trans hlast'.streams.symm⟩
  case traced =>
    intro number machine drive hmachine
    obtain ⟨kinds, hbounds, -⟩ := hinBounds hmachine
    obtain ⟨report, hreport, hlog⟩ := log_perform_drive hmachine hbounds drive
    refine ⟨report, hreport, hlog, fun htracing event hevent => ?_⟩
    rw [eventsOf_drive hmachine] at hevent
    obtain ⟨before, earlier, hbefore, hearlier, rfl⟩ := hbounds.exists_eq_stepEvent hevent
    exact hbefore.isSome_block?_stepEvent (hearlier.trans htracing)
  case unshown =>
    intro number drive event hevent
    cases hmachine : session.machines[number]? with
    | none =>
      simp only [eventsOf, hmachine] at hevent
      cases hevent
    | some machine =>
      obtain ⟨kinds, hbounds, -⟩ := hinBounds hmachine
      rw [eventsOf_drive hmachine] at hevent
      obtain ⟨before, earlier, hbefore, hearlier, rfl⟩ := hbounds.exists_eq_stepEvent hevent
      rw [hbefore.reply_stepEvent_eq_overlong_iff, hearlier]
      rfl
  case called =>
    intro number drive
    exact streams_perform_drive bound number session drive

/-- Two machines, one of which has to grow its tape. -/
def unequalPair : List (Command ScriptedInput ScriptedOutput) :=
  [.create ⟨1, true, ⟨8, none⟩⟩, .create ⟨2, false, ⟨16, some 300⟩⟩]

/-- Commands for both machines, in between which tracing begins. -/
def takingTurns : List (Command ScriptedInput ScriptedOutput) :=
  [.drive 1 (.atMost 2), .drive 0 (.watching 3), .setTracing true, .adjust 1 (some true) none,
    .drive 1 .toEnd, .drive 0 .toEnd]

/-- A program that writes from its second cell. -/
def writer : LinkedProgram :=
  ⟨"writer.bf", #[.plain ⟨.right, 1, 1⟩, .plain ⟨.add, 1, 2⟩, .plain ⟨.output, 1, 3⟩,
    .plain ⟨.left, 1, 4⟩]⟩

/-- Two machines that take turns come to what each comes to alone. -/
theorem undisturbed_takingTurns :
    (Program.ofSource "writer.bf" [0x3e, 0x2b, 0x2e, 0x3c]).link = .ok writer ∧
      writer.ReadsNothing ∧
      ∃ session, (performAll 9 ⟨writer, #[], .noInput⟩ unequalPair).2 = session ∧
        session.Undisturbed 9 ∧
        session.actsOf 9 (Command.isFeltBy 0) takingTurns =
          session.actsOf 9 (Command.isFeltBy 0)
            [.drive 0 (.watching 3), .setTracing true, .drive 0 .toEnd] ∧
        (session.actsOf 9 (Command.isFeltBy 0) takingTurns).map
            (fun act => act.events.flatMap (·.calls)) =
          [[.write 1, .flush], [], []] := by
  have hlink : (Program.ofSource "writer.bf" [0x3e, 0x2b, 0x2e, 0x3c]).link = .ok writer := rfl
  have hreads : writer.ReadsNothing := by
    unfold LinkedProgram.ReadsNothing
    decide
  have hnever : OutputStream.NeverFails ({} : ScriptedOutput) := ScriptedOutput.neverFails rfl
  have hundisturbed := undisturbed_performAll hlink 9 .noInput unequalPair
  refine ⟨hlink, hreads, _, rfl, hundisturbed, ?_, by decide +kernel⟩
  exact (hundisturbed.separate hreads hnever 0 _ _ takingTurns rfl rfl rfl hnever
    (by simp [takingTurns])).1

/-- A program that takes one from a cell and adds it again. -/
def wrapper : LinkedProgram := ⟨"wide.bf", #[.plain ⟨.sub, 1, 1⟩, .plain ⟨.add, 1, 2⟩]⟩

/-- A trace does disturb a machine whose cell holds a number of too many digits: a cell of 20000
bits goes from zero to a number of more than 6000 digits and back. Untraced, the run ends; traced,
its first step raises an error. -/
theorem disturbed_wideCell :
    (Program.ofSource "wide.bf" [0x2d, 0x2b]).link = .ok wrapper ∧
      ∃ session, (performAll 9 ⟨wrapper, #[], .noInput⟩ [.create ⟨1, false, ⟨20000, none⟩⟩]).2 =
          session ∧
        (session.actsOf 9 Command.isUntraced [.drive 0 .toEnd]).map
            (fun act => act.events.map (·.reply)) =
          [[.advanced, .advanced, .finished]] ∧
        (session.actsOf 9 Command.isUntraced [.setTracing true, .drive 0 .toEnd]).map
            (fun act => act.events.map (·.reply)) =
          [[.raised (.failure .overlong)]] := by
  refine ⟨rfl, _, rfl, ?_, ?_⟩
  · decide +kernel
  · decide +kernel

end Session

end Brainfuck
