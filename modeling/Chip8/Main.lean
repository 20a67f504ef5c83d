import Chip8.Program

/-! # The command

Plays a program file in the terminal and tells how it ended. Here bytes and lines only go in and
out; what they mean is decided elsewhere. -/

namespace Chip8.Command

open Terminal

/-- A cause is known by its number, which may come negated. -/
def hasCode (number : UInt32) (e : OpenError) : Bool :=
  e.code.any fun n ↦ number = UInt32.ofNat n || number = 0 - UInt32.ofNat n

/-- Opens and reads a program file. -/
def openRom (path : String) : IO (Except OpenError Opened) := do
  try
    return .ok (.file (← IO.FS.readBinFile path).toList)
  catch e =>
    let unreadable := Opened.unreadable ⟨toString e⟩
    match e with
    | .noFileOrDirectory .. => return .error .notFound
    | .inappropriateType _ n _ =>
      return if hasCode n .notDirectory then .error .notDirectory else .ok .directory
    | .invalidArgument _ n _ =>
      return if hasCode n .nameTooLong then .error .nameTooLong else .ok unreadable
    | _ => return .ok unreadable

/-- A seed that differs from run to run. -/
def entropy : IO UInt64 := do
  return (← IO.getRandomBytes 8).toList.foldl (fun n b ↦ 256 * n + b.toUInt64) 0

/-- Puts the events of the keyboard into the inbox for as long as there are any. -/
partial def listen (input : IO.FS.Stream) (inbox : IO.Ref (List Event)) : IO Unit := do
  let bytes ← input.read 1
  if bytes.isEmpty then inbox.modify (· ++ [.failure ⟨"end of input"⟩])
  else
    inbox.modify (· ++ bytes.toList.filterMap Event.ofByte?)
    listen input inbox

/-- Shows the screen from the upper left corner on, and sounds what the speaker has written. -/
def present (output : IO.FS.Stream) (s : Session) : IO Session := do
  let (sound, s) := s.takeSound
  output.putStr ("\x1b[H" ++ "\r\n".intercalate s.screen.lines)
  output.write ⟨sound.toArray⟩
  output.flush
  return s

/-- Takes turns until the run loop is over, each in its time. -/
partial def play (output : IO.FS.Stream) (inbox : IO.Ref (List Event)) (c : Computer Session) :
    IO (Except Halt Unit × Computer Session) := do
  let events ← inbox.modifyGet fun es ↦ (es, [])
  let start ← IO.monoNanosNow
  let turn := Computer.turn Session.host Session.pace
    { c with outside := c.outside.receive events start }
  match turn with
  | .over result c => return (result, Computer.settle result c)
  | .going c =>
    let now ← IO.monoNanosNow
    IO.sleep (UInt32.ofNat ((c.outside.now - now) / 1000000))
    play output inbox { c with outside := ← present output c.outside }

/-- Loads the file and plays it. -/
def run (file : Opened) (c : Computer Session) : IO (Except Halt Unit × Computer Session) := do
  match c.load (Program.source file) with
  | (.error e, c) => return (.error (.error e), c)
  | (.ok _, c) =>
    let inbox ← IO.mkRef []
    let output ← IO.getStdout
    let _ ← IO.asTask (listen (← IO.getStdin) inbox) Task.Priority.dedicated
    output.putStr "\x1b[2J"
    play output inbox (c.setRunState .running)

/-- So many steps the reader takes at each moment. -/
def readerShare : Nat := 64

/-- The command with valid arguments; answers the exit code. -/
def start (settings : Settings) : IO Nat := do
  IO.eprint (Program.banner settings)
  match ← openRom settings.rom with
  | .error e =>
    IO.eprint (Program.openFailureText e)
    return (Program.openFailure settings e).exitCode
  | .ok file =>
    let c := Program.computer settings (← entropy) [] fun _ ↦ readerShare
    let (result, c) ← run file c
    IO.print (Program.output c)
    IO.eprint (Program.failureText c.machine result)
    return Program.exitCode result

end Chip8.Command

open Chip8 in
def main (args : List String) : IO UInt32 := do
  match CommandLine.parse ({} : Options).clockSpeed args with
  | .ok settings => return UInt32.ofNat (← Command.start settings)
  | .error r =>
    let report := Program.refusal r
    IO.print report.out
    IO.eprint report.err
    return UInt32.ofNat report.exitCode
