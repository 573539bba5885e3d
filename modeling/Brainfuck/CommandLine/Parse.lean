import Brainfuck.CommandLine.Options

/-! # Reading the command line

Arguments are first told apart, all of them before any takes effect: words, the separator after
which only words follow, switches, and what looks like a switch and is none. Then they take effect
from left to right. A long switch may be abbreviated if that leaves one candidate; short switches
without a value may be written in one argument. The first word is the program, the others are left
over.

Main definitions: `Argument`, `classify`, `parse`. -/

namespace Brainfuck.CommandLine

/-! ## Telling arguments apart -/

/-- An argument, as far as its form tells. -/
inductive Argument where
  /-- The program, or the value of a switch. -/
  | word (text : OsText)
  /-- Two dashes, after which only words follow. -/
  | separator
  /-- A switch, whether it is written in its short form, and the value written with it. -/
  | switch (switch : Switch) (short : Bool) (value : Option OsText)
  /-- Something of the form of a switch that is none. -/
  | unknown (text : OsText)
deriving DecidableEq, Repr

/-- The character that switches begin with. -/
def dash : OsChar := .decoded '-'

/-- The text that separates switches from words. -/
def separatorText : OsText := [dash, dash]

/-- Whether a spelling is a short one: one dash and one letter. -/
def isShort (spelling : OsText) : Bool := !separatorText.isPrefixOf spelling

/-- Splits a text at the first equals sign; without one there is no second part. -/
def splitAtEquals (text : OsText) : OsText × Option OsText :=
  match text.span (· ≠ .decoded '=') with
  | (left, _ :: right) => (left, some right)
  | (left, []) => (left, none)

/-- The spellings that a long argument abbreviates. -/
def candidates (abbreviation : OsText) : List (String × Switch) :=
  Switch.table.filter fun row => abbreviation.isPrefixOf (OsText.ofString row.1)

/-- Whether a text is a minus sign and decimal digits, perhaps with a point before the last ones; a
line end may follow. -/
def isNegativeNumber (text : List Char) : Bool :=
  match text with
  | '-' :: body =>
    let body := if body.getLast? = some '\n' then body.dropLast else body
    match body.span Text.isDigit with
    | (whole, []) => !whole.isEmpty
    | (_, '.' :: fraction) => !fraction.isEmpty && fraction.all Text.isDigit
    | _ => false
  | _ => false

/-- Whether an argument that begins like a switch is a word all the same: a negative number, or a
text with a blank in it. -/
def isDashedWord (text : OsText) : Bool :=
  text.decode?.any isNegativeNumber || .decoded ' ' ∈ text

/-- What an argument is that starts with a dash and is no spelling: a switch with a value, an
abbreviation, a run of short switches, a word, or unknown. -/
def classifyDashed (text : OsText) : Except UsageError Argument :=
  let (left, right) := splitAtEquals text
  match right, Switch.ofSpelling? left with
  | some value, some switch => .ok (.switch switch (isShort left) (some value))
  | _, _ =>
    let matched : Except UsageError (Option Argument) :=
      if separatorText.isPrefixOf text then
        match candidates left with
        | [] => .ok none
        | [(_, switch)] => .ok (some (.switch switch false right))
        | several => .error (.ambiguous text (several.map (·.1)))
      else
        match Switch.ofSpelling? (text.take 2) with
        | some switch => .ok (some (.switch switch true (some (text.drop 2))))
        | none => .ok none
    matched.map fun argument =>
      argument.getD (if isDashedWord text then .word text else .unknown text)

/-- What an argument before the separator is. -/
def classifyOne (text : OsText) : Except UsageError Argument :=
  match Switch.ofSpelling? text with
  | some switch => .ok (.switch switch (isShort text) none)
  | none => if text.head? ≠ some dash ∨ text = [dash] then .ok (.word text) else classifyDashed text

/-- What the arguments are. -/
def classify : List OsText → Except UsageError (List Argument)
  | [] => .ok []
  | text :: rest =>
    if text = separatorText then .ok (.separator :: rest.map .word)
    else do
      let argument ← classifyOne text
      let arguments ← classify rest
      return argument :: arguments

/-! ## Settings -/

/-- What is made of the separator where it is written as the value of a switch. -/
inductive Dialect where
  /-- It takes away the setting of the switch. -/
  | lenient
  /-- It is a value like any other. -/
  | strict
deriving DecidableEq, Repr

/-- The settings read so far. -/
structure Draft where
  /-- The path of the program, once it is named. -/
  program : Option OsText := none
  /-- The other settings; their program is not used. -/
  options : Options := { program := [] }
  /-- The arguments left over. -/
  extras : Array OsText := #[]

/-- Why reading stops early. -/
inductive Stop where
  /-- The help text is asked for. -/
  | help
  /-- The command line is wrong. -/
  | error (error : UsageError)

/-- A switch to take effect, with its value. -/
structure Setting where
  /-- The switch. -/
  switch : Switch
  /-- Its value, empty for a switch that takes none. -/
  value : OsText := []

/-- Whether a value takes away the setting of its switch. -/
def Dialect.takesAway (dialect : Dialect) (value : OsText) : Bool :=
  dialect = .lenient && value = separatorText

/-- The number of cells that a value gives, unless it takes the setting away. -/
def readCells (dialect : Dialect) (value : OsText) : Except UsageError (Option Int) :=
  if dialect.takesAway value then .ok none
  else
    match value.string?.map PositiveInteger.parse with
    | none => .error (.invalidCells value)
    | some (.ok cells) => .ok (some cells)
    | some (.error (.numeral _)) => .error (.invalidCells value)
    | some (.error (.notPositive _)) => .error (.notPositive value)

/-- The number of bits that a value gives, unless it takes the setting away. -/
def readCellBits (dialect : Dialect) (value : OsText) : Except UsageError (Option Int) :=
  if dialect.takesAway value then .ok none
  else
    match value.string?.map Numeral.parse with
    | none => .error (.invalidBits value)
    | some (.error _) => .error (.invalidBits value)
    | some (.ok bits) =>
      if bits ∈ cellBitsChoices then .ok (some bits) else .error (.unknownBits bits)

/-- Lets a switch take effect. -/
def Options.apply (dialect : Dialect) (options : Options) (setting : Setting) :
    Except Stop Options :=
  match setting.switch with
  | .help => .error .help
  | .cells =>
    match readCells dialect setting.value with
    | .ok cells => .ok { options with cells }
    | .error error => .error (.error error)
  | .cellBits =>
    match readCellBits dialect setting.value with
    | .ok cellBits => .ok { options with cellBits }
    | .error error => .error (.error error)
  | .extensible => .ok { options with extensible := true }
  | .jit => .ok { options with jit := true }
  | .list => .ok { options with list := true }
  | .debug => .ok { options with debug := true }

/-! ## Arguments taking effect -/

/-- The switches of one argument in the short form, given the text after the first of them, and
whether the last still wants the next argument as its value. A switch that takes a value takes the
rest of the text; after any other the rest has to start with another short switch. -/
def unfoldShort (switch : Switch) : OsText → Except UsageError (List Setting × Option Switch)
  | [] =>
    if switch.takesValue then .ok ([], some switch) else .ok ([⟨switch, []⟩], none)
  | letter :: rest =>
    if switch.takesValue then .ok ([⟨switch, letter :: rest⟩], none)
    else
      match Switch.ofSpelling? [dash, letter] with
      | none => .error (.ignoredValue switch (letter :: rest))
      | some next =>
        match unfoldShort next rest with
        | .error error => .error error
        | .ok (settings, pending) => .ok (⟨switch, []⟩ :: settings, pending)

/-- The switches of one argument, and the one that still wants the next argument as its value. -/
def settingsOf (switch : Switch) (short : Bool) (value : Option OsText) :
    Except UsageError (List Setting × Option Switch) :=
  match value with
  | none => if switch.takesValue then .ok ([], some switch) else .ok ([⟨switch, []⟩], none)
  | some value =>
    if switch.takesValue then .ok ([⟨switch, value⟩], none)
    else if short && !value.isEmpty then unfoldShort switch value
    else .error (.ignoredValue switch value)

/-- Lets the switches of one argument take effect, once the whole argument has been read. -/
def Draft.apply (dialect : Dialect) (draft : Draft) (settings : List Setting) :
    Except Stop Draft := do
  let options ← settings.foldlM (Options.apply dialect) draft.options
  return { draft with options }

/-- Leaves an argument over. -/
def Draft.leave (draft : Draft) (text : OsText) : Draft :=
  { draft with extras := draft.extras.push text }

/-- Reads the arguments from left to right. A separator next to the word that is the program goes
with it; elsewhere it is left over. -/
def read (dialect : Dialect) (draft : Draft) : List Argument → Except Stop Draft
  | [] => .ok draft
  | .unknown text :: rest => read dialect (draft.leave text) rest
  | .word text :: .separator :: rest =>
    match draft.program with
    | none => read dialect { draft with program := some text } rest
    | some _ => read dialect ((draft.leave text).leave separatorText) rest
  | .word text :: rest =>
    match draft.program with
    | none => read dialect { draft with program := some text } rest
    | some _ => read dialect (draft.leave text) rest
  | .separator :: .word text :: rest =>
    match draft.program with
    | none => read dialect { draft with program := some text } rest
    | some _ => read dialect ((draft.leave separatorText).leave text) rest
  | .separator :: rest => read dialect (draft.leave separatorText) rest
  | .switch switch short value :: .word text :: rest =>
    match settingsOf switch short value with
    | .error error => .error (.error error)
    | .ok (settings, some pending) => do
      let draft ← draft.apply dialect (settings ++ [⟨pending, text⟩])
      read dialect draft rest
    | .ok (settings, none) => do
      let draft ← draft.apply dialect settings
      read dialect draft (.word text :: rest)
  | .switch switch short value :: rest =>
    match settingsOf switch short value with
    | .error error => .error (.error error)
    | .ok (_, some pending) => .error (.error (.missingValue pending))
    | .ok (settings, none) => do
      let draft ← draft.apply dialect settings
      read dialect draft rest
termination_by arguments => arguments.length

/-- What a command line asks for. -/
inductive Request where
  /-- The help text. -/
  | help
  /-- To run or print a program. -/
  | run (options : Options)
deriving DecidableEq, Repr

/-- The settings of a command line that has been read to its end. -/
def Draft.finish (draft : Draft) : Except UsageError Options :=
  match draft.program with
  | none => .error .missingProgram
  | some program =>
    let options := { draft.options with program }
    if !draft.extras.isEmpty then .error (.unrecognized draft.extras.toList)
    else if options.jit && (options.extensible || options.cellBits ≠ some 8) then .error .jitTape
    else .ok options

/-- What a command line asks for, or what is wrong with it. -/
def parse (dialect : Dialect) (arguments : List OsText) : Except UsageError Request :=
  match classify arguments with
  | .error error => .error error
  | .ok arguments =>
    match read dialect {} arguments with
    | .error .help => .ok .help
    | .error (.error error) => .error error
    | .ok draft => draft.finish.map .run

end Brainfuck.CommandLine
