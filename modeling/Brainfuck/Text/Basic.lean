import Brainfuck.Text.Printable

/-! # Texts

The characters that numerals are made of, and texts as diagnostics show them. A text that the
operating system gives, such as an argument or a path, is decoded as UTF-8; a byte that cannot be
decoded is kept as a character of its own, which has no encoding.

Main definitions: `Text.isBlank`, `Text.digitValue?`, `OsText`, `OsText.decode?`, `OsText.shown`,
`OsText.quoted`. -/

namespace Brainfuck

namespace Text

/-! ## Blanks

The characters that may surround a numeral. Within ASCII these are the blank and the five layout
controls from tab to carriage return, not the four information separators; beyond ASCII they are all
characters that Unicode counts as white space. -/

/-- Whether a character may surround a numeral. -/
def isBlank (c : Char) : Bool :=
  let code := c.toNat
  code = 0x20 || (0x09 ≤ code && code ≤ 0x0D) || code = 0x85 || code = 0xA0 || code = 0x1680 ||
    (0x2000 ≤ code && code ≤ 0x200A) || code = 0x2028 || code = 0x2029 || code = 0x202F ||
    code = 0x205F || code = 0x3000

/-! ## Decimal digits

Many scripts have decimal digits of their own; each of their sets is ten consecutive characters that
stand for zero to nine. The table lists the zeros, for version 14 of the Unicode standard. -/

/-- The codes of the characters for zero, in increasing order; the first is the ASCII one. -/
def digitZeros : List Nat :=
  [0x30, 0x660, 0x6F0, 0x7C0, 0x966, 0x9E6, 0xA66, 0xAE6, 0xB66, 0xBE6, 0xC66, 0xCE6, 0xD66,
    0xDE6, 0xE50, 0xED0, 0xF20, 0x1040, 0x1090, 0x17E0, 0x1810, 0x1946, 0x19D0, 0x1A80, 0x1A90,
    0x1B50, 0x1BB0, 0x1C40, 0x1C50, 0xA620, 0xA8D0, 0xA900, 0xA9D0, 0xA9F0, 0xAA50, 0xABF0,
    0xFF10, 0x104A0, 0x10D30, 0x11066, 0x110F0, 0x11136, 0x111D0, 0x112F0, 0x11450, 0x114D0,
    0x11650, 0x116C0, 0x11730, 0x118E0, 0x11950, 0x11C50, 0x11D50, 0x11DA0, 0x16A60, 0x16AC0,
    0x16B50, 0x1D7CE, 0x1D7D8, 0x1D7E2, 0x1D7EC, 0x1D7F6, 0x1E140, 0x1E2F0, 0x1E950, 0x1FBF0]

/-- The value of a decimal digit. -/
def digitValue? (c : Char) : Option Nat :=
  match digitZeros.find? fun first => first ≤ c.toNat && c.toNat < first + 10 with
  | some first => some (c.toNat - first)
  | none => none

/-- Whether a character is a decimal digit. -/
def isDigit (c : Char) : Bool := (digitValue? c).isSome

/-! ## Escapes

A character that is not printable is shown by its code, in as many hexadecimal digits as its size
needs: two, four or eight. -/

/-- The lower-case hexadecimal digit of a value below sixteen. -/
def hexDigit (value : Nat) : Char :=
  if value < 10 then Char.ofNat (0x30 + value) else Char.ofNat (0x61 + (value - 10))

/-- The last `count` hexadecimal digits of a number. -/
def hexDigits : Nat → Nat → List Char
  | 0, _ => []
  | count + 1, value => hexDigits count (value / 16) ++ [hexDigit (value % 16)]

/-- A code in the shortest of the three forms. -/
def escapeCode (code : Nat) : List Char :=
  if code < 0x100 then '\\' :: 'x' :: hexDigits 2 code
  else if code < 0x10000 then '\\' :: 'u' :: hexDigits 4 code
  else '\\' :: 'U' :: hexDigits 8 code

/-- A character inside the given quotes. The quote and the backslash are written behind a backslash;
tab, line feed and carriage return by their letters. -/
def escape (quote c : Char) : List Char :=
  if c = quote ∨ c = '\\' then ['\\', c]
  else if c = '\t' then ['\\', 't']
  else if c = '\n' then ['\\', 'n']
  else if c = '\r' then ['\\', 'r']
  else if isPrintable c then [c]
  else escapeCode c.toNat

end Text

/-! ## Texts of the operating system -/

/-- A character of a text that the operating system gives. -/
inductive OsChar where
  /-- A character that was decoded. -/
  | decoded (c : Char)
  /-- A byte that could not be decoded. -/
  | undecoded (byte : UInt8)
deriving DecidableEq, Repr

namespace OsChar

/-- The code that a byte stands under that could not be decoded; it is the code of no character. -/
def surrogate (byte : UInt8) : Nat := 0xDC00 + byte.toNat

/-- A character as it is printed to the diagnostics: what has no encoding is shown by its code. -/
def shown : OsChar → List Char
  | decoded c => [c]
  | undecoded byte => Text.escapeCode (surrogate byte)

/-- A character inside the given quotes. -/
def escape (quote : Char) : OsChar → List Char
  | decoded c => Text.escape quote c
  | undecoded byte => Text.escapeCode (surrogate byte)

/-- Whether a character has no encoding. -/
def isUndecoded : OsChar → Bool
  | decoded _ => false
  | undecoded _ => true

/-- The number of bytes that a character takes up. -/
def byteLength : OsChar → Nat
  | decoded c => c.utf8Size
  | undecoded _ => 1

end OsChar

/-- A text that the operating system gives, such as an argument or a path. -/
abbrev OsText := List OsChar

/-- Why a text cannot be encoded: the first characters in it that have no encoding. -/
structure EncodingError where
  /-- The number of characters before them. -/
  position : Nat
  /-- The byte that the first of them stands for. -/
  byte : UInt8
  /-- The number of further ones right after the first. -/
  more : Nat
deriving DecidableEq, Repr

/-- The diagnostic for a text that cannot be encoded. -/
def EncodingError.message (error : EncodingError) : String :=
  let culprit :=
    if error.more = 0 then
      "character '" ++ String.ofList (Text.escapeCode (OsChar.surrogate error.byte)) ++
        "' in position " ++ toString error.position
    else
      "characters in position " ++ toString error.position ++ "-" ++
        toString (error.position + error.more)
  "'utf-8' codec can't encode " ++ culprit ++ ": surrogates not allowed"

namespace OsText

/-- A text all of whose characters are decoded. -/
def ofString (text : String) : OsText := text.toList.map .decoded

/-- The characters of a text, if all of them could be decoded. -/
def decode? : OsText → Option (List Char)
  | [] => some []
  | .decoded c :: rest => (decode? rest).map (c :: ·)
  | .undecoded _ :: _ => none

/-- The text as a string, if all of it could be decoded. -/
def string? (text : OsText) : Option String := (decode? text).map String.ofList

/-- Why a text cannot be encoded that stands behind `position` other characters, if it cannot. -/
def encodingError? (position : Nat) : OsText → Option EncodingError
  | [] => none
  | .decoded _ :: rest => encodingError? (position + 1) rest
  | .undecoded byte :: rest => some ⟨position, byte, (rest.takeWhile OsChar.isUndecoded).length⟩

/-- The text as it is printed to the diagnostics. -/
def shown (text : OsText) : String := String.ofList (text.flatMap OsChar.shown)

/-- The number of bytes that a text takes up. -/
def byteLength (text : OsText) : Nat := text.foldl (fun length c => length + c.byteLength) 0

/-- The quote to put around a text: a single one, unless the text holds one and no double quote. -/
def quoteFor (text : OsText) : Char :=
  if .decoded '\'' ∈ text ∧ .decoded '"' ∉ text then '"' else '\''

/-- A text in quotes. -/
def quoted (text : OsText) : String :=
  let quote := quoteFor text
  String.ofList (quote :: text.flatMap (OsChar.escape quote) ++ [quote])

/-- A text can be encoded exactly if all of its characters were decoded. -/
theorem encodingError?_eq_none_iff {position : Nat} {text : OsText} :
    encodingError? position text = none ↔ ∀ c ∈ text, c.isUndecoded = false := by
  induction text generalizing position with
  | nil => simp [encodingError?]
  | cons c rest ih => cases c <;> simp [encodingError?, OsChar.isUndecoded, ih]

end OsText

/-- A text in quotes, as diagnostics show it. -/
def Text.quoted (text : String) : String := OsText.quoted (.ofString text)

end Brainfuck
