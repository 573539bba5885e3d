import Brainfuck.Ir.Syntax

/-! # The text of single-assignment code

The form in which a unit is written for an assembler: a header, the function with its blocks in
the order of their creation, and one declaration for each function it calls. -/

namespace Brainfuck.Ir

/-- The name of an integer type. -/
def Width.text : Width → String
  | bit => "i1"
  | byte => "i8"
  | reply => "i32"
  | word => "i64"

/-- The name of the address type of an integer type. -/
def Width.addressText (width : Width) : String := width.text ++ "*"

/-- The word for an operation. -/
def Arithmetic.text : Arithmetic → String
  | add => "add"
  | sub => "sub"

/-- The word for a comparison. -/
def Comparison.text : Comparison → String
  | equal => "eq"
  | notEqual => "ne"
  | unsignedLess => "ult"
  | signedAtLeast => "sge"

/-- The name of a called function. -/
def Callee.text : Callee → String
  | putByte => "bft_put_byte"
  | getByte => "bft_get_byte"

/-- The declaration of a called function. -/
def Callee.declaration : Callee → String
  | putByte => "declare i32 @\"bft_put_byte\"(i8 %\".1\")"
  | getByte => "declare i32 @\"bft_get_byte\"()"

/-- A value as an operand. -/
def Name.reference (name : Name) : String := "%\"" ++ name.text ++ "\""

/-- What a store writes. -/
def Operand.text : Operand → String
  | named name => name.reference
  | literal value => toString value

/-- The name of a block as a target, given the labels of all blocks. -/
def labelReference (labels : Array Name) (block : Nat) : String :=
  match labels[block]? with
  | some label => "label " ++ label.reference
  | none => "label ?"

/-- An instruction, given the labels of all blocks. -/
def Instr.text (labels : Array Name) : Instr → String
  | reserve result => result.reference ++ " = alloca i64"
  | load result width address =>
    result.reference ++ " = load " ++ width.text ++ ", " ++ width.addressText ++ " " ++
      address.reference
  | store width value address =>
    "store " ++ width.text ++ " " ++ value.text ++ ", " ++ width.addressText ++ " " ++
      address.reference
  | element result base index =>
    result.reference ++ " = getelementptr inbounds i8, i8* " ++ base.reference ++ ", i64 " ++
      index.reference
  | arithmetic result operation width left right =>
    result.reference ++ " = " ++ operation.text ++ " " ++ width.text ++ " " ++ left.reference ++
      ", " ++ toString right
  | compare result comparison width left right =>
    result.reference ++ " = icmp " ++ comparison.text ++ " " ++ width.text ++ " " ++
      left.reference ++ ", " ++ toString right
  | truncate result value =>
    result.reference ++ " = trunc i32 " ++ value.reference ++ " to i8"
  | put result byte =>
    result.reference ++ " = call i32 @\"" ++ Callee.putByte.text ++ "\"(i8 " ++ byte.reference ++
      ")"
  | get result => result.reference ++ " = call i32 @\"" ++ Callee.getByte.text ++ "\"()"
  | branch condition ifTrue ifFalse =>
    "br i1 " ++ condition.reference ++ ", " ++ labelReference labels ifTrue ++ ", " ++
      labelReference labels ifFalse
  | ret value => "ret i64 " ++ toString value

/-- A block: its label, then its instructions, each on an indented line. -/
def Block.text (labels : Array Name) (block : Block) : String :=
  block.code.foldl (fun text instr => text ++ ("  " ++ instr.text labels ++ "\n"))
    (block.label.text ++ ":\n")

/-- The function: its head, then its blocks between braces. -/
def Function.text (function : Function) : String :=
  let labels := function.blocks.map (·.label)
  function.blocks.foldl (fun text block => text ++ block.text labels)
    ("define i64 @\"bft_jit_exec\"(i8* " ++ function.parameter.reference ++ ")\n\x7b\n") ++
    "\x7d\n"

/-- The first lines of a unit; the name of the file is written as it is. -/
def CodeUnit.header (file : String) : String :=
  "; ModuleID = \"" ++ file ++ "\"\ntarget triple = \"x86_64-unknown-linux-gnu\"\n" ++
    "target datalayout = \"\"\n\n"

/-- A unit: the header, the function, and the declarations, each after an empty line. -/
def CodeUnit.text (unit : CodeUnit) : String :=
  unit.declarations.foldl (fun text callee => text ++ ("\n" ++ callee.declaration ++ "\n"))
    (CodeUnit.header unit.file ++ unit.function.text)

end Brainfuck.Ir
