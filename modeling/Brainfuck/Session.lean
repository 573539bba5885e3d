import Brainfuck.Machine.Settings

/-! # Sessions

A session drives any number of machines that share one program and one console. Each command acts on
one machine or on the console, and gives a report.

Main definitions: `Machine.walk`, `Machine.watch`, `Session`, `Session.perform`. -/

namespace Brainfuck

/-! ## Counted and watched steps -/

/-- An outcome and the number of steps that returned. -/
structure Walk (ι ο : Type) where
  /-- The outcome of the last step. -/
  outcome : Outcome ι ο
  /-- The number of steps that returned, be it to say that the program had ended. -/
  returned : Nat

/-- What a machine shows after a step that returned. -/
structure Sighting where
  /-- Whether the step executed an instruction. -/
  advanced : Bool
  /-- The machine's status. -/
  status : Status
  /-- The index of its next instruction. -/
  pc : Nat
  /-- The index of the current cell. -/
  head : Nat
  /-- The value of the current cell. -/
  current : Int
  /-- The number of cells. -/
  size : Nat
deriving DecidableEq, Repr

namespace Machine

variable {ι ο : Type} [InputStream ι] [OutputStream ο]

/-- What a machine shows after a step. -/
def sighting (machine : Machine) (advanced : Bool) : Sighting :=
  ⟨advanced, machine.status, machine.pc, machine.tape.head, machine.tape.current,
    machine.tape.size⟩

/-- At most `limit` steps, traced if the console is, up to the first that does not execute an
instruction, counted on from `returned`. -/
def walk (limit : Nat) (returned : Nat) (machine : Machine) (console : Console ι ο) : Walk ι ο :=
  match limit with
  | 0 => ⟨⟨.advanced, machine, console⟩, returned⟩
  | limit + 1 =>
    match machine.stepTraced console with
    | ⟨.advanced, machine, console⟩ => walk limit (returned + 1) machine console
    | ⟨.finished, machine, console⟩ => ⟨⟨.finished, machine, console⟩, returned + 1⟩
    | ⟨.raised error, machine, console⟩ => ⟨⟨.raised error, machine, console⟩, returned⟩

/-- Exactly `count` steps, traced if the console is, also past the end of the program, unless one
raises an error; what the machine shows after each is added to `seen`. -/
def watch (count : Nat) (seen : Array Sighting) (machine : Machine) (console : Console ι ο) :
    Array Sighting × Outcome ι ο :=
  match count with
  | 0 => (seen, ⟨.advanced, machine, console⟩)
  | count + 1 =>
    match machine.stepTraced console with
    | ⟨.advanced, machine, console⟩ =>
      watch count (seen.push (machine.sighting true)) machine console
    | ⟨.finished, machine, console⟩ =>
      watch count (seen.push (machine.sighting false)) machine console
    | ⟨.raised error, machine, console⟩ => (seen, ⟨.raised error, machine, console⟩)

end Machine

/-! ## Commands and reports -/

/-- How a machine is to be stepped. -/
inductive Drive where
  /-- Until the program ends. -/
  | toEnd
  /-- Until the program ends, or a number of steps were made. -/
  | atMost (limit : Nat)
  /-- A number of steps, each of them watched. -/
  | watching (count : Nat)
deriving DecidableEq, Repr

/-- A command of a session. Machines are numbered in the order of their creation. -/
inductive Command (ι ο : Type) where
  /-- Make a machine. -/
  | create (settings : MachineSettings)
  /-- Attach another input. -/
  | attachInput (input : ι)
  /-- Attach another output. -/
  | attachOutput (output : ο)
  /-- Begin or stop tracing steps. -/
  | setTracing (on : Bool)
  /-- Change whether a tape may grow, or the kind of cell; the cells keep their values. -/
  | adjust (number : Nat) (mayGrow : Option Bool) (cell : Option CellSettings)
  /-- Step a machine. -/
  | drive (number : Nat) (drive : Drive)

/-- What stepping a machine came to. -/
structure DriveReport where
  /-- The machine afterwards. -/
  machine : Machine
  /-- What the last step came to. -/
  reply : Reply
  /-- The number of steps that returned, where they were counted. -/
  returned : Nat := 0
  /-- What was seen, where steps were watched. -/
  seen : Array Sighting := #[]
  /-- The diagnostic text of these steps. -/
  log : String
deriving DecidableEq, Repr

/-- The report of a command. -/
inductive Report where
  /-- The console was changed. -/
  | attached
  /-- A machine was made or changed, and is now this one. -/
  | settled (machine : Machine)
  /-- What was asked of a machine is impossible. -/
  | refused (error : SetupError)
  /-- A machine was stepped. -/
  | driven (report : DriveReport)
  /-- There is no machine of this number. -/
  | noMachine (number : Nat)
deriving DecidableEq, Repr

/-- Machines that share a program and a console. -/
structure Session (ι ο : Type) where
  /-- The program. -/
  program : LinkedProgram
  /-- The machines, in the order of their creation. -/
  machines : Array Machine := #[]
  /-- The console. -/
  console : Console ι ο

namespace Session

variable {ι ο : Type} [InputStream ι] [OutputStream ο]

/-- Steps a machine over a console whose diagnostic text starts empty. `bound` limits a drive to the
end of the program. -/
def driveMachine (bound : Nat) (machine : Machine) (console : Console ι ο) :
    Drive → DriveReport × Console ι ο
  | .toEnd =>
    let ⟨reply, machine, console⟩ := machine.runTraced bound { console with log := "" }
    ({ machine, reply, log := console.log }, console)
  | .atMost limit =>
    let ⟨⟨reply, machine, console⟩, returned⟩ := machine.walk limit 0 { console with log := "" }
    ({ machine, reply, returned, log := console.log }, console)
  | .watching count =>
    let (seen, ⟨reply, machine, console⟩) := machine.watch count #[] { console with log := "" }
    ({ machine, reply, seen, log := console.log }, console)

/-- Changes the settings of a machine: first whether it may grow, then its cells. An impossible kind
of cell is refused, and what was changed before it stays changed. -/
def adjustMachine (machine : Machine) (mayGrow : Option Bool) (cell : Option CellSettings) :
    Machine × Option SetupError :=
  let machine := { machine with mayGrow := mayGrow.getD machine.mayGrow }
  match cell with
  | none => (machine, none)
  | some settings =>
    match settings.kind with
    | .ok kind => ({ machine with cell := kind }, none)
    | .error error => (machine, some (.cell error))

/-- Performs one command. -/
def perform (bound : Nat) (session : Session ι ο) : Command ι ο → Report × Session ι ο
  | .create settings =>
    match settings.build session.program with
    | .ok machine =>
      (.settled machine, { session with machines := session.machines.push machine })
    | .error error => (.refused error, session)
  | .attachInput input =>
    (.attached, { session with console := { session.console with input } })
  | .attachOutput output =>
    (.attached, { session with console := { session.console with output } })
  | .setTracing on =>
    (.attached, { session with console := { session.console with tracing := on } })
  | .adjust number mayGrow cell =>
    match session.machines[number]? with
    | none => (.noMachine number, session)
    | some machine =>
      let (machine, error) := adjustMachine machine mayGrow cell
      let session := { session with machines := session.machines.setIfInBounds number machine }
      match error with
      | none => (.settled machine, session)
      | some error => (.refused error, session)
  | .drive number drive =>
    match session.machines[number]? with
    | none => (.noMachine number, session)
    | some machine =>
      let (report, console) := driveMachine bound machine session.console drive
      (.driven report,
        { session with
          machines := session.machines.setIfInBounds number report.machine
          console })

/-- Performs commands in order, collecting their reports. -/
def performAll (bound : Nat) (session : Session ι ο) (commands : List (Command ι ο)) :
    List Report × Session ι ο :=
  match commands with
  | [] => ([], session)
  | command :: rest =>
    let (report, session) := session.perform bound command
    let (reports, session) := session.performAll bound rest
    (report :: reports, session)

end Session

end Brainfuck
