import Chip8.Clock
import Chip8.Host
import Chip8.Speaker
import Chip8.Terminal.Keypad
import Chip8.Terminal.Reader
import Chip8.Terminal.Screen

/-! # A terminal session

Everything around a machine that plays in a terminal: screen, speaker, clock, keypad, and the reader
that works beside the machine. A schedule says how many steps the reader takes at each moment in
which the machine could notice them: at a tick, and before each look at the channel. -/

namespace Chip8.Terminal

structure Session where
  screen : Screen
  speaker : Speaker
  latch : KeyLatch
  reader : Reader
  link : Link
  clock : Clock
  now : Nat
  /-- The steps of the reader at each moment. -/
  schedule : Nat → Nat
  /-- How many moments have passed. -/
  moment : Nat

namespace Session

/-- How long a key press lasts, in nanoseconds. -/
def keyHold : Nat := 150000000

/-- A session that begins at time zero. -/
def start (speaker : Speaker) (hz : Nat) (events : List Event) (schedule : Nat → Nat) :
    Session where
  screen := .empty
  speaker
  latch := .ofHold keyHold
  reader := { unread := events }
  link := {}
  clock := .ofHz hz
  now := 0
  schedule
  moment := 0

/-- A schedule by which the reader has read all events before the machine looks. -/
def eager (events : List Event) : Nat → Nat := fun _ ↦ 3 * events.length + 3

/-- Lets the reader take its steps of this moment. -/
def letRead (s : Session) : Session :=
  let (reader, link) := Reader.steps (s.schedule s.moment) (s.reader, s.link)
  { s with reader, link, moment := s.moment + 1 }

/-- Adds events that have come up, at the time `now`. -/
def receive (s : Session) (events : List Event) (now : Nat) : Session :=
  { s with reader := { s.reader with unread := s.reader.unread ++ events }, now }

/-- The bytes that the speaker has written since they were last taken. -/
def takeSound (s : Session) : List UInt8 × Session :=
  match s.speaker with
  | .mute _ => ([], s)
  | .bell sink => (sink.written, { s with speaker := .bell { sink with written := [] } })

/-! ## The devices -/

def draw (grid : Grid) (s : Session) : Except DeviceError Unit × Session :=
  match Screen.draw grid.frame with
  | .ok screen => (.ok (), { s with screen })
  | .error e => (.error e, s)

def keypad (s : Session) : TerminalKeypad := ⟨s.link.channel, s.latch⟩

def putKeypad (s : Session) (k : TerminalKeypad) : Session :=
  { s with link := { s.link with channel := k.channel }, latch := k.latch }

/-- At most `limit` looks at the channel, each with the reader at work before it. -/
def looks : Nat → Session → Except KeypadError UInt8 × Session
  | 0, s =>
    let (result, k) := s.keypad.latched s.now
    (result, s.putKeypad k)
  | limit + 1, s =>
    let s := s.letRead
    match s.keypad.look s.now with
    | .again k => looks limit (s.putKeypad k)
    | .answer result k => (result, s.putKeypad k)

/-- Asks the keypad. No more messages can come than wait, are unread or are being sent. -/
def key (s : Session) : Except KeypadError UInt8 × Session :=
  looks (s.link.channel.queue.length + s.reader.unread.length + 2) s

def cue (s : Session) : Except DeviceError Unit × Session :=
  let (result, speaker) := s.speaker.cue
  (result, { s with speaker })

def tick (s : Session) : Session :=
  let (now, clock) := s.clock.tick s.now
  { s with now, clock }.letRead

def host : Host Session := ⟨draw, key, cue⟩

def pace : Pace Session := ⟨tick, fun s ↦ s.link.stopped⟩

end Session

end Chip8.Terminal
