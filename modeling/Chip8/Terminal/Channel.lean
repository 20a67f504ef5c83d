import Chip8.Terminal.Event

/-! # The message channel

Messages pass from the reader of the terminal to the keypad, first in, first out. -/

namespace Chip8.Terminal

inductive Message
  | key (k : UInt8)
  | quit
  | failed (e : DeviceError)
deriving DecidableEq, Repr

/-- A key is followed by more messages; any other message is the last. -/
def Message.isLast : Message → Bool
  | .key _ => false
  | _ => true

structure Channel where
  /-- Messages sent and not yet received, oldest first. -/
  queue : List Message := []
  /-- The sender is gone. -/
  closed : Bool := false
  /-- The receiver is gone. -/
  abandoned : Bool := false
deriving DecidableEq, Repr

/-- What trying to receive finds. -/
inductive Received
  | message (m : Message)
  /-- There is no message yet. -/
  | empty
  /-- There will be no more messages. -/
  | disconnected
deriving DecidableEq, Repr

namespace Channel

/-- Whether a message that is sent now will be kept. -/
def accepts (c : Channel) : Bool := !c.closed && !c.abandoned

/-- Puts a message behind the others; it is lost once an end of the channel is gone. -/
def send (c : Channel) (m : Message) : Channel :=
  if c.accepts then { c with queue := c.queue ++ [m] } else c

def close (c : Channel) : Channel := { c with closed := true }

/-- Takes the oldest message. Messages that wait are received even after the sender has gone. -/
def tryReceive (c : Channel) : Received × Channel :=
  match c.queue with
  | m :: rest => (.message m, { c with queue := rest })
  | [] => (if c.closed then .disconnected else .empty, c)

end Channel

end Chip8.Terminal
