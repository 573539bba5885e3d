/-! # Usage and help

The texts that explain the command line. -/

namespace Brainfuck.CommandLine

/-- The name of the tool. -/
def toolName : String := "bft"

/-- The summary of the command line. -/
def usage : String :=
  "usage: bft [-h] [-c CELLS] [-e] [--cell-bits \x7b8,16,32\x7d] [--jit] [--list] [-d]\n" ++
  "           program\n"

/-- The help text. -/
def help : String :=
  usage ++
  "\n" ++
  "Run a brainfuck program\n" ++
  "\n" ++
  "positional arguments:\n" ++
  "  program               brainfuck source file\n" ++
  "\n" ++
  "options:\n" ++
  "  -h, --help            show this help message and exit\n" ++
  "  -c CELLS, --cells CELLS\n" ++
  "                        number of tape cells (default 30000)\n" ++
  "  -e, --extensible      grow the tape instead of failing when moving past its\n" ++
  "                        end\n" ++
  "  --cell-bits \x7b8,16,32\x7d\n" ++
  "  --jit                 compile to native code with LLVM\n" ++
  "  --list                print the decorated program and exit\n" ++
  "  -d, --debug           trace every step\n"

end Brainfuck.CommandLine
