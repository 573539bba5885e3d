/-! # Cell arithmetic

A cell kind fixes how many bits a cell has and which value a new cell holds. Every value an
operation computes is reduced modulo two to the number of bits; the value of a new cell is taken as
it is, so a tape may hold any integer.

Main definitions: `CellKind`, `CellKind.ofBits`, `CellKind.increment`, `CellKind.decrement`,
`CellKind.fromByte`, `CellKind.toByte`, `CellKind.isZero`. -/

namespace Brainfuck

/-- The arithmetic of one cell: an unsigned integer of a given width that wraps around. -/
structure CellKind where
  /-- The number of bits of a cell. -/
  bits : Nat
  /-- A cell has at least one bit. -/
  bits_pos : 0 < bits
  /-- The value of a new cell. -/
  zero : Int := 0
deriving DecidableEq, Repr

/-- The number of bits asked for is not positive. -/
structure CellWidthError where
  /-- The number of bits asked for. -/
  bits : Int
deriving DecidableEq, Repr

/-- The diagnostic for a cell without bits. -/
def CellWidthError.message (error : CellWidthError) : String :=
  "cell width must be positive, got " ++ toString error.bits

namespace CellKind

/-- The kind of cell with a given number of bits whose new cells hold zero. -/
def ofBits (bits : Int) : Except CellWidthError CellKind :=
  if h : 0 < bits then .ok ⟨bits.toNat, by omega, 0⟩ else .error ⟨bits⟩

/-- Cells of eight bits. -/
def byte : CellKind := ⟨8, by decide, 0⟩

/-- The number of values of a cell, two to the number of bits. -/
def modulus (kind : CellKind) : Nat := Nat.pow 2 kind.bits

/-- The largest value of a cell. -/
def mask (kind : CellKind) : Nat := kind.modulus - 1

/-- The value of a cell of this kind that an integer stands for. -/
def wrap (kind : CellKind) (value : Int) : Int := value % (kind.modulus : Int)

/-- One more, wrapping around. -/
def increment (kind : CellKind) (value : Int) : Int := kind.wrap (value + 1)

/-- One less, wrapping around. -/
def decrement (kind : CellKind) (value : Int) : Int := kind.wrap (value - 1)

/-- The cell value of a byte of input. -/
def fromByte (kind : CellKind) (byte : Int) : Int := kind.wrap byte

/-- The low eight bits of a cell, which is what is written to the output. -/
def toByte (_ : CellKind) (value : Int) : Int := value % 256

/-- Whether a loop ends on this value: only the integer zero is zero. -/
def isZero (_ : CellKind) (value : Int) : Bool := value = 0

theorem modulus_pos (kind : CellKind) : 0 < kind.modulus :=
  Nat.two_pow_pos kind.bits

/-- A wrapped value is not negative. -/
theorem wrap_nonneg (kind : CellKind) (value : Int) : 0 ≤ kind.wrap value :=
  Int.emod_nonneg value (by have := kind.modulus_pos; omega)

/-- A wrapped value fits the cell. -/
theorem wrap_lt (kind : CellKind) (value : Int) : kind.wrap value < kind.modulus :=
  Int.emod_lt_of_pos value (by have := kind.modulus_pos; omega)

/-- One less than zero is the largest value. -/
theorem decrement_zero (kind : CellKind) : kind.decrement 0 = kind.mask := by
  have hpos := kind.modulus_pos
  have hround : (0 : Int) - 1 = kind.mask + kind.modulus * (-1) := by
    rw [mask]
    omega
  rw [decrement, wrap, hround, Int.add_mul_emod_self_left]
  apply Int.emod_eq_of_lt
  · exact Int.natCast_nonneg _
  · rw [mask]
    omega

theorem wrap_zero (kind : CellKind) : kind.wrap 0 = 0 := by
  simp [wrap]

theorem wrap_eq_zero_iff {kind : CellKind} {value : Int} :
    kind.wrap value = 0 ↔ (kind.modulus : Int) ∣ value :=
  Int.dvd_iff_emod_eq_zero.symm

end CellKind

end Brainfuck
