import Brainfuck.Numeral.Written
import Brainfuck.Text.Basic

/-! # Numerals

A numeral is an optional sign and decimal digits, between blanks; a single underscore may stand
between two digits. A numeral of more than 4300 digits is refused for its length, and so is a text
that goes on after so many digits with something that is no numeral.

Main definitions: `Numeral.parse`, `PositiveInteger.parse`. -/

namespace Brainfuck

/-- Why a text is no numeral. -/
inductive NumeralError where
  /-- It is not of the form of a numeral. -/
  | malformed (text : String)
  /-- It has too many digits. -/
  | tooLong (digits : Nat)
deriving DecidableEq, Repr

namespace Numeral

/-- The largest number of characters that a diagnostic shows of a quoted text. -/
def shownLimit : Nat := 200

/-- Whether a character can occur among the digits. -/
def isBody (c : Char) : Bool := c = '_' || Text.isDigit c

/-- Whether every underscore stands between two digits, given whether a digit stands before. -/
def underscoresBetween (afterDigit : Bool) : List Char → Bool
  | [] => afterDigit
  | '_' :: rest => afterDigit && underscoresBetween false rest
  | _ :: rest => underscoresBetween true rest

/-- The values of the digits of a body. -/
def digitValues (body : List Char) : List Nat := body.filterMap Text.digitValue?

/-- The number that decimal digits write, the first being the most significant. -/
def value (digits : List Nat) : Nat := digits.foldl (fun number digit => 10 * number + digit) 0

/-- Takes a sign off a text; the result says whether it was a minus sign. -/
def splitSign : List Char → Bool × List Char
  | '-' :: rest => (true, rest)
  | '+' :: rest => (false, rest)
  | text => (false, text)

/-- The integer that a text writes. -/
def parse (text : String) : Except NumeralError Int :=
  let (negative, rest) := splitSign (text.toList.dropWhile Text.isBlank)
  let body := rest.takeWhile isBody
  let digits := digitValues body
  if !underscoresBetween false body then .error (.malformed text)
  else if digitLimit < digits.length then .error (.tooLong digits.length)
  else if (rest.dropWhile isBody).all Text.isBlank then
    .ok (if negative then -(value digits : Int) else value digits)
  else .error (.malformed text)

end Numeral

/-- The diagnostic for a text that is no numeral. -/
def NumeralError.message : NumeralError → String
  | malformed text =>
    "invalid literal for int() with base 10: " ++
      String.ofList ((Text.quoted text).toList.take Numeral.shownLimit)
  | tooLong digits =>
    "Exceeds the limit (" ++ toString Numeral.digitLimit ++
      " digits) for integer string conversion: value has " ++ toString digits ++
      " digits; use sys.set_int_max_str_digits() to increase the limit"

/-- Why a text is no positive integer. -/
inductive PositiveIntegerError where
  /-- It is no numeral. -/
  | numeral (error : NumeralError)
  /-- Its value is zero or less. -/
  | notPositive (text : String)
deriving DecidableEq, Repr

/-- The diagnostic for a text that is no positive integer. -/
def PositiveIntegerError.message : PositiveIntegerError → String
  | numeral error => error.message
  | notPositive text => text ++ " is not a positive integer"

/-- The positive integer that a text writes. -/
def PositiveInteger.parse (text : String) : Except PositiveIntegerError Int :=
  match Numeral.parse text with
  | .error error => .error (.numeral error)
  | .ok value => if 0 < value then .ok value else .error (.notPositive text)

/-- A positive integer is positive. -/
theorem PositiveInteger.pos_of_parse {text : String} {value : Int} (h : parse text = .ok value) :
    0 < value := by
  unfold parse at h
  cases hparse : Numeral.parse text with
  | error error => simp [hparse] at h
  | ok parsed =>
    by_cases hpositive : 0 < parsed
    · simp only [hparse, if_pos hpositive, Except.ok.injEq] at h
      exact h ▸ hpositive
    · simp [hparse, hpositive] at h

end Brainfuck
