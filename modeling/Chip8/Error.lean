import Chip8.Numeral

/-! # Errors

What can go wrong, by cause. The wording of each cause stands in one function. -/

namespace Chip8

open Numeral

/-- A failure that a device outside the machine reports in its own words. -/
structure DeviceError where
  text : String
deriving DecidableEq, Repr

/-- The answers of a keypad other than a key. -/
inductive KeypadError
  | noKey
  | quit
  | unavailable
  | device (e : DeviceError)
deriving DecidableEq, Repr

def KeypadError.message : KeypadError → String
  | .noKey => "no key pressed"
  | .quit => "quit requested"
  | .unavailable => "null keypad not usable"
  | .device e => e.text

/-- Everything that a machine reports. -/
inductive Error
  | unknownOpcode (word : UInt16)
  | quit
  | keypad (cause : KeypadError)
  | loadOverflow (size available : Nat) (offset : UInt16)
  | load (cause : DeviceError)
  | display (cause : DeviceError)
  | sound (cause : DeviceError)
  | stackOverflow (addr : UInt16)
  | stackUnderflow (pc : UInt16)
deriving DecidableEq, Repr

namespace Error

/-- A keypad that asks to quit shuts the machine down; any other answer is a failure of
the keypad. -/
def ofKeypad : KeypadError → Error
  | .quit => .quit
  | e => .keypad e

/-- Opcodes have four digits, addresses at least three. -/
def message : Error → String
  | .unknownOpcode word => "unknown opcode: " ++ marked 4 word.toNat
  | .quit => "shutting down"
  | .keypad _ => "unable to get key from keypad"
  | .loadOverflow size available offset =>
    "program is " ++ decimal size ++ " bytes, only " ++ decimal available ++
      " bytes free from " ++ marked 3 offset.toNat
  | .load e => "unable to read program: " ++ e.text
  | .display e => "unable to render display: " ++ e.text
  | .sound e => "unable to sound timer cue: " ++ e.text
  | .stackOverflow addr => "stack overflow calling " ++ marked 3 addr.toNat
  | .stackUnderflow pc => "stack underflow returning from " ++ marked 3 pc.toNat

/-- The text of the cause, for the errors that pass one on. -/
def cause? : Error → Option String
  | .keypad e => some e.message
  | .load e | .display e | .sound e => some e.text
  | _ => none

end Error

end Chip8
