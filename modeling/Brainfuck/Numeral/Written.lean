/-! # Numbers written out

Integers are shown in decimal digits. A number of more digits than a limit allows is not written out
at all; without a limit every number is.

Main definitions: `Numeral.fits`, `Numeral.write?`. Main statement: a limit bounds the number of
digits (`Numeral.fits_some_iff`). -/

namespace Brainfuck.Numeral

/-- The largest number of digits of a numeral, where no other limit is set. -/
def digitLimit : Nat := 4300

/-- The limit where no other one is set. -/
def standardLimit : Option Nat := some digitLimit

/-- Whether a number has no more digits than a limit allows; its sign is none. -/
def fits (limit : Option Nat) (value : Int) : Bool :=
  match limit with
  | none => true
  | some digits => value.natAbs < Nat.pow 10 digits

/-- The decimal digits of a number, behind a minus sign if it is negative, unless there are too
many. -/
def write? (limit : Option Nat) (value : Int) : Option String :=
  if fits limit value then some (toString value) else none

/-- The diagnostic for a number that has too many digits to be written out. -/
def overlongMessage : String :=
  "Exceeds the limit (" ++ toString digitLimit ++
    " digits) for integer string conversion; use sys.set_int_max_str_digits() to increase the limit"

theorem write?_eq_some_iff {limit : Option Nat} {value : Int} {text : String} :
    write? limit value = some text ↔ fits limit value = true ∧ toString value = text := by
  unfold write?
  split <;> simp_all

end Brainfuck.Numeral
