import Chip8.Keystream

/-! # The stream of random draws

A seed determines an endless sequence of draws, each from 0 to 254. -/

namespace Chip8

structure RandomStream where
  key : Keystream.Key
  /-- The keystream words used up so far. -/
  position : Nat
deriving DecidableEq

namespace RandomStream

/-! ## The key of a seed

Eight words of a congruential generator whose output is permuted: the high bits are folded down and
rotated by the five highest. -/

def advance (state : UInt64) : UInt64 := state * 6364136223846793005 + 11634580027462260723

def output (state : UInt64) : UInt32 :=
  let folded := (((state >>> 18) ^^^ state) >>> 27).toUInt32
  let amount := (state >>> 59).toUInt32
  (folded >>> amount) ||| (folded <<< ((32 - amount) % 32))

/-- The generator after `k` steps from the seed. -/
def generator (seed : UInt64) : Nat → UInt64
  | 0 => seed
  | k + 1 => advance (generator seed k)

def keyOfSeed (seed : UInt64) : Keystream.Key :=
  Vector.ofFn fun k ↦ output (generator seed (k + 1))

def ofSeed (seed : UInt64) : RandomStream := ⟨keyOfSeed seed, 0⟩

/-! ## Draws -/

/-- The draw that a word gives: the high half of its product with 255. The one word whose low half
is all ones is refused, so that all draws are equally likely. -/
def draw? (w : UInt32) : Option UInt8 :=
  if w.toNat * 255 % UInt32.size = UInt32.size - 1 then none
  else some (UInt8.ofNat (w.toNat * 255 / UInt32.size))

/-- The first draw that one of `limit` words gives, and the position behind it. -/
def search (key : Keystream.Key) : Nat → Nat → UInt8 × Nat
  | 0, position => (0, position)
  | limit + 1, position =>
    match draw? (Keystream.word key position) with
    | some r => (r, position + 1)
    | none => search key limit (position + 1)

/-- The length after which the keystream repeats: sixteen words for each number of a block. -/
def period : Nat := 16 * UInt64.size

/-- The next draw: no further words than one whole period need to be looked at. -/
def next (s : RandomStream) : UInt8 × RandomStream :=
  let (r, position) := search s.key period s.position
  (r, { s with position })

/-! ## The range of a draw -/

theorem draw?_le {w : UInt32} {r : UInt8} (h : draw? w = some r) : r.toNat ≤ 254 := by
  have hw := w.toNat_lt
  simp only [draw?, UInt32.size] at h
  split at h
  · exact nomatch h
  · obtain rfl := Option.some.inj h
    have hq : w.toNat * 255 / 4294967296 < 255 := Nat.div_lt_of_lt_mul (by omega)
    rw [UInt8.toNat_ofNat']
    omega

@[simp] theorem key_next (s : RandomStream) : s.next.2.key = s.key := rfl

end RandomStream

end Chip8
