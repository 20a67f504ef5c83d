import Chip8.CommandLine
import Chip8.Computer
import Chip8.Folder
import Chip8.Machine.Dump
import Chip8.Terminal.Session

/-! # The program

From settings and a file to a run in the terminal, and from its end to the exit code and to what
stands on the two output streams. -/

namespace Chip8.Program

open Terminal

/-- How the program ends; the screen itself is not part of the output. -/
@[ext]
structure Report where
  exitCode : Nat
  out : String
  err : String
deriving DecidableEq, Repr

/-- The first line of the error stream. -/
def banner (settings : Settings) : String := "Loading rom " ++ settings.rom ++ "\n"

/-! ## Before the run -/

/-- A program file as a source of bytes. -/
def source : Opened → Source
  | .file contents => .ofBytes contents
  | .unreadable e => ⟨[], some e⟩

def options (settings : Settings) : Options :=
  { clockSpeed := settings.clockSpeed, seed := settings.seed }

def speaker (settings : Settings) : Speaker :=
  if settings.mute then .mute 0 else .bell .unlimited

/-- The machine in its terminal before the program file is loaded. -/
def computer (settings : Settings) (entropy : UInt64) (events : List Event) (schedule : Nat → Nat) :
    Computer Session :=
  ⟨.fresh (options settings) entropy,
    .start (speaker settings) (options settings).clockSpeed events schedule⟩

/-! ## The run -/

/-- Loads the program file and, if it fits, runs it for at most `limit` turns. -/
def execute (limit : Nat) (file : Opened) (c : Computer Session) :
    Option (Except Halt Unit × Computer Session) :=
  match c.load (source file) with
  | (.error e, c) => some (.error (.error e), c)
  | (.ok _, c) => c.run Session.host Session.pace limit

/-! ## After the run -/

/-- What the speaker has written, and two empty lines. -/
def output (c : Computer Session) : String :=
  String.ofList (c.outside.speaker.written.map fun b ↦ Char.ofNat b.toNat) ++ "\n\n"

/-- Running to the end or to a stop is a success. -/
def exitCode : Except Halt Unit → Nat
  | .ok () => 0
  | .error (.error _) => 1
  | .error .fault => 101

/-- An error is told with its message and the state of the machine. -/
def failureText (m : Machine) : Except Halt Unit → String
  | .error (.error e) => "termchip8: " ++ e.message ++ "\n  " ++ m.dump ++ "\n"
  | _ => ""

def report (settings : Settings) (result : Except Halt Unit) (c : Computer Session) : Report :=
  ⟨exitCode result, output c, banner settings ++ failureText c.machine result⟩

/-- What is told of a file that cannot be opened. -/
def openFailureText (e : OpenError) : String := "Error: " ++ e.describe ++ "\n"

/-- A file that cannot be opened ends the program before the terminal is set up. -/
def openFailure (settings : Settings) (e : OpenError) : Report :=
  ⟨1, "", banner settings ++ openFailureText e⟩

/-- Help and version are asked for, anything else is a mistake. -/
def refusal (r : Refusal) : Report :=
  if r.exitCode = 0 then ⟨0, r.message, ""⟩ else ⟨r.exitCode, "", r.message⟩

/-- The whole program in a folder and on a terminal whose events are all there from the start. -/
def run (limit : Nat) (entropy : UInt64) (folder : Folder) (events : List Event)
    (settings : Settings) : Option Report :=
  match folder.openPath settings.rom with
  | .error e => some (openFailure settings e)
  | .ok file =>
    (execute limit file (computer settings entropy events (Session.eager events))).map
      fun (result, c) ↦ report settings result c

end Chip8.Program
