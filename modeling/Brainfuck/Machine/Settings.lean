import Brainfuck.Machine

/-! # Settings of a machine

What can be asked of a new machine, and what may be wrong with it. The cells are settled before the
tape, so an impossible cell width is reported before an impossible size. -/

namespace Brainfuck

/-- The cells asked for: their width, and the value of new cells if it is not to be zero. -/
structure CellSettings where
  /-- The number of bits of a cell. -/
  bits : Int := 8
  /-- The value of a new cell, which is not reduced to the width. -/
  zero : Option Int := none
deriving DecidableEq, Repr

/-- The kind of cell asked for. -/
def CellSettings.kind (settings : CellSettings) : Except CellWidthError CellKind := do
  let kind ← CellKind.ofBits settings.bits
  return { kind with zero := settings.zero.getD 0 }

/-- The machine asked for. -/
structure MachineSettings where
  /-- The number of cells; zero asks for the default. -/
  size : Int := 0
  /-- Whether the tape may grow. -/
  mayGrow : Bool := false
  /-- The cells. -/
  cell : CellSettings := {}
deriving DecidableEq, Repr

/-- Why the machine asked for cannot be made. -/
inductive SetupError where
  /-- The cells cannot be made. -/
  | cell (error : CellWidthError)
  /-- The tape cannot be made. -/
  | tape (error : TapeSizeError)
deriving DecidableEq, Repr

/-- The diagnostic for a machine that cannot be made. -/
def SetupError.message : SetupError → String
  | .cell error => error.message
  | .tape error => error.message

/-- The machine asked for, at the start of a program. -/
def MachineSettings.build (settings : MachineSettings) (program : LinkedProgram) :
    Except SetupError Machine := do
  let kind ← settings.cell.kind.mapError .cell
  (Machine.create program kind settings.mayGrow settings.size).mapError .tape

/-- A machine that can be made is a new machine with some kind of cell. -/
theorem MachineSettings.create_of_build {settings : MachineSettings} {program : LinkedProgram}
    {machine : Machine} (h : settings.build program = .ok machine) :
    ∃ kind, Machine.create program kind settings.mayGrow settings.size = .ok machine := by
  unfold build at h
  cases hkind : settings.cell.kind with
  | error error =>
    rw [hkind] at h
    cases h
  | ok kind =>
    refine ⟨kind, ?_⟩
    rw [hkind] at h
    replace h : (Machine.create program kind settings.mayGrow settings.size).mapError
      SetupError.tape = .ok machine := h
    cases hcreate : Machine.create program kind settings.mayGrow settings.size with
    | error error =>
      rw [hcreate] at h
      cases h
    | ok made =>
      rw [hcreate] at h
      cases h
      rfl

end Brainfuck
