/-! # The command line

One program file, two options that take a value, and flags. Arguments are read from left to right.
A value is only looked at when the next argument that has a meaning begins, so an argument without
a meaning is reported before a bad value in front of it. -/

namespace Chip8

/-- What the command line asks for. -/
structure Settings where
  rom : String
  clockSpeed : Nat
  seed : Option UInt64
  mute : Bool
deriving DecidableEq, Repr

/-- Why a command line gives no settings. -/
inductive Refusal
  /-- The help text was asked for. -/
  | help
  /-- The version was asked for. -/
  | version
  /-- There is no program file. -/
  | missingRequired
  /-- There is no such argument. -/
  | unknownArgument
  /-- A value has the wrong form or is out of range. -/
  | invalidNumber
  /-- An option stands without its value, or the name of the program file is empty. -/
  | missingValue
  /-- An argument stands twice. -/
  | repeated
  /-- A flag stands with a value. -/
  | unexpectedValue
deriving DecidableEq, Repr

namespace Refusal

/-- Asking for help or the version is no failure. -/
def exitCode : Refusal → Nat
  | help | version => 0
  | _ => 2

def usage : String := "Usage: termchip8 [OPTIONS] <ROM>\n"

/-- The text for the user. -/
def message : Refusal → String
  | help =>
    "Run a CHIP-8 program in the terminal. Esc or Ctrl-C quits.\n\n" ++ usage ++
      "\nArguments:\n  <ROM>  program image to load at 0x200\n" ++
      "\nOptions:\n" ++
      "      --clock-speed <CLOCK_SPEED>  instructions (and timer ticks) per second " ++
        "[default: 60]\n" ++
      "      --seed <SEED>                seed for the random number opcode, for reproducible " ++
        "runs\n" ++
      "      --mute                       keep the terminal bell quiet\n" ++
      "  -h, --help                       Print help\n" ++
      "  -V, --version                    Print version\n"
  | version => "termchip8\n"
  | missingRequired => "error: no program file is given\n\n" ++ usage
  | unknownArgument => "error: an argument is not known\n\n" ++ usage
  | invalidNumber => "error: a value is no number or out of range\n\n" ++ usage
  | missingValue => "error: a value is missing\n\n" ++ usage
  | repeated => "error: an argument is given twice\n\n" ++ usage
  | unexpectedValue => "error: a flag takes no value\n\n" ++ usage

end Refusal

namespace CommandLine

/-! ## Numbers -/

/-- The number that decimal digits stand for; nothing if there are none or others. -/
def natOfDigits? (cs : List Char) : Option Nat :=
  if cs ≠ [] ∧ cs.all Char.isDigit then
    some (cs.foldl (fun n c ↦ 10 * n + (c.toNat - '0'.toNat)) 0)
  else none

/-- A number from `low` to `high`, with or without a plus sign. -/
def number? (low high : Nat) (text : String) : Option Nat :=
  let digits := match text.toList with
    | '+' :: cs => cs
    | cs => cs
  (natOfDigits? digits).filter fun n ↦ low ≤ n ∧ n ≤ high

/-! ## The forms of an argument -/

inductive Form
  /-- Two hyphens: only values follow. -/
  | separator
  /-- Two hyphens and a name, perhaps with an equals sign and a value. -/
  | long (name : List Char) (value : Option String)
  /-- One hyphen and letters. -/
  | short (letters : List Char)
  | plain
deriving DecidableEq, Repr

/-- Splits at the first equals sign. -/
def splitValue (cs : List Char) : List Char × Option String :=
  match cs.dropWhile (· ≠ '=') with
  | [] => (cs, none)
  | _ :: value => (cs.takeWhile (· ≠ '='), some (String.ofList value))

/-- A single hyphen is a plain value. -/
def formOf (arg : String) : Form :=
  match arg.toList with
  | ['-', '-'] => .separator
  | '-' :: '-' :: cs => let (name, value) := splitValue cs; .long name value
  | '-' :: c :: cs => .short (c :: cs)
  | _ => .plain

/-! ## Reading -/

/-- The arguments that have a value. -/
inductive Slot
  | rom
  | clockSpeed
  | seed
deriving DecidableEq, Repr

/-- The flags. -/
inductive Flag
  | mute
  | help
  | version
deriving DecidableEq, Repr

/-- What a name after two hyphens stands for. -/
def longName? (name : List Char) : Option (Slot ⊕ Flag) :=
  if name = "clock-speed".toList then some (.inl .clockSpeed)
  else if name = "seed".toList then some (.inl .seed)
  else if name = "mute".toList then some (.inr .mute)
  else if name = "help".toList then some (.inr .help)
  else if name = "version".toList then some (.inr .version)
  else none

/-- What has been read so far. -/
structure Progress where
  rom : Option String := none
  clockSpeed : Option Nat := none
  seed : Option UInt64 := none
  mute : Bool := false
  /-- The argument that was read last, if it has a value; the value may still be to come. -/
  pending : Option (Slot × Option String) := none
  /-- The program file has been named. -/
  romNamed : Bool := false
  /-- Only values follow. -/
  onlyValues : Bool := false
deriving DecidableEq, Repr

namespace Progress

/-- Takes over the value of an argument. That it stands twice is found before the value is read. -/
def accept (p : Progress) : Slot → String → Except Refusal Progress
  | .rom, text => if text = "" then .error .missingValue else .ok { p with rom := some text }
  | .clockSpeed, text =>
    if p.clockSpeed.isSome then .error .repeated
    else match number? 1 (UInt32.size - 1) text with
      | some n => .ok { p with clockSpeed := some n }
      | none => .error .invalidNumber
  | .seed, text =>
    if p.seed.isSome then .error .repeated
    else match number? 0 (UInt64.size - 1) text with
      | some n => .ok { p with seed := some (UInt64.ofNat n) }
      | none => .error .invalidNumber

/-- Settles the argument that was read last. -/
def settle (p : Progress) : Except Refusal Progress :=
  match p.pending with
  | none => .ok p
  | some (_, none) => .error .missingValue
  | some (slot, some text) => { p with pending := none }.accept slot text

def raise (p : Progress) : Flag → Except Refusal Progress
  | .mute => if p.mute then .error .repeated else .ok { p with mute := true }
  | .help => .error .help
  | .version => .error .version

/-- An argument with two hyphens. A value that is joined to it is read at once. -/
def readLong (p : Progress) (name : List Char) (value : Option String) : Except Refusal Progress :=
  match longName? name, value with
  | none, _ => .error .unknownArgument
  | some (.inr _), some _ => .error .unexpectedValue
  | some (.inr flag), none => do (← p.settle).raise flag
  | some (.inl slot), some text => do (← p.settle).accept slot text
  | some (.inl slot), none => do return { (← p.settle) with pending := some (slot, none) }

/-- Letters after one hyphen: all that have a meaning end the reading. -/
def readShort (p : Progress) : List Char → Except Refusal Progress
  | 'h' :: _ => do (← p.settle).raise .help
  | 'V' :: _ => do (← p.settle).raise .version
  | _ => .error .unknownArgument

/-- A value on its own names the program file, of which there is one. -/
def readRom (p : Progress) (text : String) : Except Refusal Progress :=
  if p.romNamed then .error .unknownArgument
  else do return { (← p.settle) with pending := some (.rom, some text), romNamed := true }

/-- A value belongs to the option in front of it, if that still lacks one. -/
def readPlain (p : Progress) (text : String) : Except Refusal Progress :=
  match p.pending with
  | some (slot, none) => .ok { p with pending := some (slot, some text) }
  | _ => p.readRom text

def read (p : Progress) (arg : String) : Except Refusal Progress :=
  if p.onlyValues then p.readRom arg
  else match formOf arg with
    | .separator => .ok { p with onlyValues := true }
    | .long name value => p.readLong name value
    | .short letters => p.readShort letters
    | .plain => p.readPlain arg

/-- The settings after the last argument. -/
def finish (p : Progress) (defaultSpeed : Nat) : Except Refusal Settings := do
  let p ← p.settle
  match p.rom with
  | none => .error .missingRequired
  | some rom => .ok ⟨rom, p.clockSpeed.getD defaultSpeed, p.seed, p.mute⟩

end Progress

/-- Reads the arguments behind the program's name. -/
def parse (defaultSpeed : Nat) (args : List String) : Except Refusal Settings := do
  (← args.foldlM Progress.read {}).finish defaultSpeed

end CommandLine

end Chip8
