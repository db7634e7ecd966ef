/-
# Help texts

What the program says about itself when it is asked to.
-/

namespace Disassembler8080.CommandLine

/-- The answer to a request for the version. -/
def versionText : String := "dis8080 0.1.0\n"

/-- Lines, each with its line feed. -/
def ofLines (lines : List String) : String := String.join (lines.map (· ++ "\n"))

/-- The answer to a request for a summary. -/
def summaryText : String :=
  ofLines
    ["Intel 8080 disassembler with label resolution",
      "",
      "Usage: dis8080 [OPTIONS] [INPUT]",
      "",
      "Arguments:",
      "  [INPUT]  Binary image to disassemble. Reads stdin when omitted or `-`",
      "",
      "Options:",
      "  -d, --data <ADDR> <COUNT>  Force COUNT bytes starting at ADDR to be emitted as data (repeatable)",
      "  -o, --output <FILE>        Write the listing to FILE instead of stdout",
      "  -v, --verbose...           Increase log verbosity (-v info, -vv debug, -vvv trace). RUST_LOG takes precedence",
      "  -h, --help                 Print help (see more with '--help')",
      "  -V, --version              Print version"]

/-- The answer to a request for all there is to say. -/
def detailsText : String :=
  ofLines
    ["Intel 8080 disassembler.",
      "",
      "Reads a binary image loaded at address 0 and prints assembler source. Every address used",
      "by a 16 bit operand gets a label. Labels that do not fall on an instruction boundary are",
      "defined as constants after the code.",
      "",
      "Use -d ADDR COUNT (repeatable) to keep a block of bytes out of instruction decoding, e.g.",
      "tables or strings. Numbers are decimal, 0x-prefixed hex or 0-prefixed octal.",
      "",
      "Usage: dis8080 [OPTIONS] [INPUT]",
      "",
      "Arguments:",
      "  [INPUT]",
      "          Binary image to disassemble. Reads stdin when omitted or `-`",
      "",
      "Options:",
      "  -d, --data <ADDR> <COUNT>",
      "          Force COUNT bytes starting at ADDR to be emitted as data (repeatable)",
      "",
      "  -o, --output <FILE>",
      "          Write the listing to FILE instead of stdout",
      "",
      "  -v, --verbose...",
      "          Increase log verbosity (-v info, -vv debug, -vvv trace). RUST_LOG takes precedence",
      "",
      "  -h, --help",
      "          Print help (see a summary with '-h')",
      "",
      "  -V, --version",
      "          Print version"]

/-- The line that follows every complaint about the arguments. -/
def usageHint : String := "For more information, try '--help'."

end Disassembler8080.CommandLine
