import Brainfuck.CommandLine.Run

/-! # Runs in slices

A machine need not be run in one go. It is run for a number of steps at a time, so that output
appears while the program runs. Where it finds no input, more is fetched and the same instruction is
tried again, since a step that is not completed leaves the machine as it was but for its status.

Main definitions: `Pause`, `pauseOf`, `runSlices`. -/

namespace Brainfuck.CommandLine

/-- The outcome of a slice. -/
abbrev ToolOutcome := Outcome ScriptedInput ScriptedOutput

/-- Why a slice has ended. -/
inductive Pause where
  /-- Its steps were made. -/
  | limit
  /-- There was no input for an instruction. -/
  | starved
  /-- The run has ended. -/
  | ended
deriving DecidableEq, Repr

/-- Whether an error says that there was no input. -/
def isStarvation : RunError → Bool
  | .fault fault => fault.cause = .io .exhausted
  | .failure _ => false

/-- Why a slice with this last reply has ended. -/
def pauseOf : Reply → Pause
  | .advanced => .limit
  | .finished => .ended
  | .raised error => if isStarvation error then .starved else .ended

/-- The report of a run so far, whose exit code only counts at the end. -/
def progress (console : ToolConsole) : Report := .ofConsole console (.exit 0) ""

/-- A console from which what has been written is taken off, with more input. -/
def resume (console : ToolConsole) (bytes : List UInt8) : ToolConsole :=
  { console with
    input := { console.input with remaining := console.input.remaining ++ bytes }
    output := { console.output with stored := #[] }
    log := "" }

/-- Runs a machine slice by slice, up to a number of slices. What was written is put out after every
slice but the last; `fetch` gives more input, or none if there is no more. The result is the last
report, unless the number of slices was too small. -/
@[specialize] def runSlices {m : Type → Type} [Monad m] (fetch : m (List UInt8))
    (put : Report → m Unit) (length slices : Nat) (machine : Machine) (console : ToolConsole) :
    m (Option Report) := do
  match slices with
  | 0 => return none
  | slices + 1 =>
    let ⟨reply, next, console⟩ := machine.runTraced length console
    match pauseOf reply with
    | .ended => return some (.ofOutcome ⟨reply, next, console⟩)
    | .limit =>
      put (progress console)
      runSlices fetch put length slices next (resume console [])
    | .starved =>
      put (progress console)
      let bytes ← fetch
      if bytes.isEmpty then return some (.ofOutcome ⟨reply, next, resume console []⟩)
      else
        -- the fault is forgotten, and nothing else has changed
        let machine := { next with status := machine.status }
        runSlices fetch put length slices machine (resume console bytes)

end Brainfuck.CommandLine
