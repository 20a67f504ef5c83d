import Chip8.Instruction.Fields
import Chip8.Numeral

/-! # Patterns of the instruction set

The words that are instructions, by pattern: a hexadecimal digit stands for itself, and `X`, `Y`,
`N` and `_` stand for any digit. -/

namespace Chip8.Pattern

/-- The documented patterns. -/
def documented : List String :=
  ["00E0", "00EE", "1NNN", "2NNN", "3XNN", "4XNN", "5XY_", "6XNN", "7XNN", "8XY0", "8XY1", "8XY2",
    "8XY3", "8XY4", "8XY5", "8XY6", "8XY7", "8XYE", "9XY0", "ANNN", "BNNN", "CXNN", "DXYN", "EX9E",
    "EXA1", "FX07", "FX0A", "FX15", "FX18", "FX1E", "FX29", "FX33", "FX55", "FX65"]

/-- Whether a pattern character admits a nibble. -/
def admits (c : Char) (d : Fin 16) : Bool :=
  c = 'X' || c = 'Y' || c = 'N' || c = '_' || c = Numeral.digit d

/-- Whether a word has the form of a pattern, place by place. -/
def covers (pattern : String) (w : UInt16) : Bool :=
  pattern.toList.length = 4 && (pattern.toList.zip (Fields.nibbles w)).all fun p ↦ admits p.1 p.2

end Chip8.Pattern
