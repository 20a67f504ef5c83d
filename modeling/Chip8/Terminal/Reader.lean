import Chip8.Terminal.Channel
import Chip8.Terminal.Keymap

/-! # The terminal reader

The reader turns terminal events into messages. It works in small steps, because the machine looks
at the channel and at the stop flag while the reader is at work: to quit, it first raises the flag,
then sends its message, and then lets go of the channel. -/

namespace Chip8.Terminal

/-- The message for an event, if there is one. Escape quits, and so does the lower-case letter `c`
with control; other characters stand for keys whatever their case and modifiers. -/
def Event.message? : Event → Option Message
  | .key .escape => some .quit
  | .key _ => none
  | .char c mods => if c = 'c' ∧ mods.ctrl then some .quit else (keyOf? c.toLower).map .key
  | .resize => none
  | .failure e => some (.failed e)

/-- What the reader shares with the machine. -/
structure Link where
  /-- The stop flag. -/
  stopped : Bool := false
  channel : Channel := {}
deriving DecidableEq, Repr

inductive ReaderPhase
  /-- Waits for the next event. -/
  | reading
  /-- Is about to raise the stop flag, and then to send the message that quits. -/
  | stopping
  | sending (m : Message)
  /-- Is about to let go of the channel. -/
  | closing
  | ended
deriving DecidableEq, Repr

structure Reader where
  /-- Events that have not been read. -/
  unread : List Event
  phase : ReaderPhase := .reading
deriving DecidableEq, Repr

namespace Reader

/-- The phase after an event. -/
def react (e : Event) : ReaderPhase :=
  match e.message? with
  | none => .reading
  | some .quit => .stopping
  | some m => .sending m

/-- The phase after sending `m`: the reader ends after its last message, or once nobody listens. -/
def afterSending (m : Message) (c : Channel) : ReaderPhase :=
  if m.isLast || c.abandoned then .closing else .reading

/-- One step. A reader without events stays where it is until there are some. -/
def step : Reader × Link → Reader × Link
  | (r, l) =>
    match r.phase with
    | .reading =>
      match r.unread with
      | [] => (r, l)
      | e :: rest => (⟨rest, react e⟩, l)
    | .stopping => ({ r with phase := .sending .quit }, { l with stopped := true })
    | .sending m =>
      ({ r with phase := afterSending m l.channel }, { l with channel := l.channel.send m })
    | .closing => ({ r with phase := .ended }, { l with channel := l.channel.close })
    | .ended => (r, l)

def steps : Nat → Reader × Link → Reader × Link
  | 0, s => s
  | k + 1, s => steps k (step s)

/-- Works off all events that are there: an event takes at most three steps, and the end one. -/
def finish (s : Reader × Link) : Reader × Link := steps (3 * s.1.unread.length + 3) s

end Reader

end Chip8.Terminal
