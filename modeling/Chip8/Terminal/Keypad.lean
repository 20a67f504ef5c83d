import Chip8.Terminal.Channel
import Chip8.Terminal.Latch

/-! # The terminal keypad

The keypad's end of the channel. A query takes all the keys that wait, the newest of which is
latched. -/

namespace Chip8.Terminal

structure TerminalKeypad where
  channel : Channel
  latch : KeyLatch
deriving DecidableEq, Repr

namespace TerminalKeypad

/-- What one look at the channel leads to. -/
inductive Look
  /-- A key was latched, and there may be more. -/
  | again (k : TerminalKeypad)
  | answer (result : Except KeypadError UInt8) (k : TerminalKeypad)

/-- The answer when no message waits: the latched key. -/
def latched (now : Nat) (k : TerminalKeypad) : Except KeypadError UInt8 × TerminalKeypad :=
  match k.latch.current now with
  | (some key, latch) => (.ok key, { k with latch })
  | (none, latch) => (.error .noKey, { k with latch })

/-- Looks at the channel once. A channel that has ended quits, whatever is latched. -/
def look (now : Nat) (k : TerminalKeypad) : Look :=
  match k.channel.tryReceive with
  | (.message (.key key), channel) => .again ⟨channel, k.latch.press key now⟩
  | (.message .quit, channel) => .answer (.error .quit) { k with channel }
  | (.message (.failed e), channel) => .answer (.error (.device e)) { k with channel }
  | (.disconnected, channel) => .answer (.error .quit) { k with channel }
  | (.empty, _) => let (result, k) := k.latched now; .answer result k

/-- At most `limit` looks, then the latched key. -/
def looks (now : Nat) : Nat → TerminalKeypad → Except KeypadError UInt8 × TerminalKeypad
  | 0, k => k.latched now
  | limit + 1, k =>
    match k.look now with
    | .again k => looks now limit k
    | .answer result k => (result, k)

/-- A query at the time `now`: one look for each message that waits, and one more. -/
def query (now : Nat) (k : TerminalKeypad) : Except KeypadError UInt8 × TerminalKeypad :=
  looks now (k.channel.queue.length + 1) k

end TerminalKeypad

end Chip8.Terminal
