import Chip8.Instruction.Decode

/-! # Instruction words

The word that stands for an instruction. Where decoding ignores a nibble, the word has
zero there. -/

namespace Chip8.Instruction

/-- A word from a class, a register and a byte. -/
def wordOfByte (kind : Nat) (x : Register) (nn : Nat) : UInt16 :=
  UInt16.ofNat (4096 * kind + 256 * x.val + nn)

/-- A word from a class, two registers and a nibble. -/
def wordOfNibbles (kind : Nat) (x y : Register) (n : Nat) : UInt16 :=
  UInt16.ofNat (4096 * kind + 256 * x.val + 16 * y.val + n)

/-- A word from a class and an address, of which the low twelve bits count. -/
def wordOfAddress (kind : Nat) (addr : UInt16) : UInt16 :=
  UInt16.ofNat (4096 * kind + addr.toNat % 4096)

def word : Instruction → UInt16
  | clearScreen => 0x00E0
  | ret => 0x00EE
  | jump addr => wordOfAddress 0x1 addr
  | call addr => wordOfAddress 0x2 addr
  | skipEqImm x nn => wordOfByte 0x3 x nn.toNat
  | skipNeImm x nn => wordOfByte 0x4 x nn.toNat
  | skipEqReg x y => wordOfNibbles 0x5 x y 0
  | setImm x nn => wordOfByte 0x6 x nn.toNat
  | addImm x nn => wordOfByte 0x7 x nn.toNat
  | copy x y => wordOfNibbles 0x8 x y 0x0
  | or x y => wordOfNibbles 0x8 x y 0x1
  | and x y => wordOfNibbles 0x8 x y 0x2
  | xor x y => wordOfNibbles 0x8 x y 0x3
  | add x y => wordOfNibbles 0x8 x y 0x4
  | sub x y => wordOfNibbles 0x8 x y 0x5
  | shiftRight x => wordOfNibbles 0x8 x 0 0x6
  | subN x y => wordOfNibbles 0x8 x y 0x7
  | shiftLeft x => wordOfNibbles 0x8 x 0 0xE
  | skipNeReg x y => wordOfNibbles 0x9 x y 0x0
  | setIndex addr => wordOfAddress 0xA addr
  | jumpOffset addr => wordOfAddress 0xB addr
  | random x nn => wordOfByte 0xC x nn.toNat
  | draw x y rows => wordOfNibbles 0xD x y rows
  | skipPressed x => wordOfByte 0xE x 0x9E
  | skipNotPressed x => wordOfByte 0xE x 0xA1
  | getDelay x => wordOfByte 0xF x 0x07
  | waitKey x => wordOfByte 0xF x 0x0A
  | setDelay x => wordOfByte 0xF x 0x15
  | setSound x => wordOfByte 0xF x 0x18
  | addIndex x => wordOfByte 0xF x 0x1E
  | fontChar x => wordOfByte 0xF x 0x29
  | bcd x => wordOfByte 0xF x 0x33
  | store x => wordOfByte 0xF x 0x55
  | load x => wordOfByte 0xF x 0x65

end Chip8.Instruction
