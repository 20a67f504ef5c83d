/-! # The ChaCha keystream

An endless sequence of 32-bit words that a key of eight words determines: blocks of sixteen words,
numbered from zero, each made from the key and its number in twelve rounds. -/

namespace Chip8.Keystream

abbrev Key := Vector UInt32 8

abbrev Block := Vector UInt32 16

def rotateLeft (w k : UInt32) : UInt32 := (w <<< k) ||| (w >>> (32 - k))

/-- Mixes four words of a block. -/
def quarterRound (a b c d : Fin 16) (s : Block) : Block :=
  let a₁ := s[a] + s[b]
  let d₁ := rotateLeft (s[d] ^^^ a₁) 16
  let c₁ := s[c] + d₁
  let b₁ := rotateLeft (s[b] ^^^ c₁) 12
  let a₂ := a₁ + b₁
  let d₂ := rotateLeft (d₁ ^^^ a₂) 8
  let c₂ := c₁ + d₂
  let b₂ := rotateLeft (b₁ ^^^ c₂) 7
  (((s.set a a₂).set b b₂).set c c₂).set d d₂

/-- A round on the columns of the four by four square of words. -/
def columnRound (s : Block) : Block :=
  quarterRound 3 7 11 15 (quarterRound 2 6 10 14 (quarterRound 1 5 9 13 (quarterRound 0 4 8 12 s)))

/-- A round on its diagonals. -/
def diagonalRound (s : Block) : Block :=
  quarterRound 3 4 9 14 (quarterRound 2 7 8 13 (quarterRound 1 6 11 12 (quarterRound 0 5 10 15 s)))

/-- So many pairs of a column round and a diagonal round. -/
def doubleRounds : Nat → Block → Block
  | 0, s => s
  | k + 1, s => doubleRounds k (diagonalRound (columnRound s))

/-- The words before the rounds: four constants, the key, the number of the block, low word first,
and two zeros. -/
def start (key : Key) (number : UInt64) : Block :=
  #v[0x61707865, 0x3320646e, 0x79622d32, 0x6b206574,
    key[0], key[1], key[2], key[3], key[4], key[5], key[6], key[7],
    number.toUInt32, (number >>> 32).toUInt32, 0, 0]

/-- A block is the sum of the words before and after the rounds. -/
def block (key : Key) (number : UInt64) : Block :=
  (doubleRounds 6 (start key number)).zipWith (· + ·) (start key number)

/-- The word at a position of the sequence. The number of the block wraps at 64 bits, so the
sequence repeats after `2 ^ 68` words. -/
def word (key : Key) (position : Nat) : UInt32 :=
  (block key (UInt64.ofNat (position / 16))).get (Fin.ofNat 16 position)

end Chip8.Keystream
