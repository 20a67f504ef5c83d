import Chip8.Machine.Basic

/-! # Executing an instruction

What an instruction does to the machine alone, up to the point where it needs the display or the
keypad. -/

namespace Chip8

/-- How far the machine gets by itself. -/
inductive Effect
  /-- The instruction is finished. -/
  | done (m : Machine)
  /-- The instruction is refused and the machine left as it was. -/
  | refused (e : Error)
  /-- The stack pointer led outside the stack; `m` is the machine at that point. -/
  | fault (m : Machine)
  /-- The instruction is finished once the display has been offered the grid of `m`. -/
  | drawn (m : Machine)
  /-- The keypad has to be asked; the machine then depends on its key, if any. -/
  | asking (resume : Option UInt8 → Machine)

namespace Machine

/-! ## Calls -/

/-- Opens a call from the program counter to `addr`. -/
def call (m : Machine) (addr : UInt16) : Effect :=
  if m.sp = stackTop then .refused (.stackOverflow addr)
  else if m.sp = 255 then .fault m
  else if h : (m.sp + 1).toNat < 16 then
    .done { m with sp := m.sp + 1, stack := m.stack.set (m.sp + 1).toNat m.pc h, pc := addr }
  else .fault { m with sp := m.sp + 1 }

/-- Closes the latest call and continues behind its call site. -/
def ret (m : Machine) : Effect :=
  if m.sp = 0 then .refused (.stackUnderflow m.pc)
  else if h : m.sp.toNat < 16 then
    .done { m with pc := m.stack[m.sp.toNat], sp := m.sp - 1 }.advance
  else .fault m

/-! ## Memory -/

/-- The three decimal digits of a byte, hundreds first. -/
def decimals (b : UInt8) : List UInt8 := [b / 100, b / 10 % 10, b % 10]

/-- Writes bytes from the index register on and moves on. -/
def storeBytes (m : Machine) (bytes : List UInt8) : Machine :=
  { m with memory := m.memory.setBlock m.i bytes }.advance

/-- The registers up to `last`, from the first one on. -/
def registersUpTo (m : Machine) (last : Register) : List UInt8 := m.v.toList.take (last.val + 1)

/-- Fills the registers up to `last` from memory and moves on. -/
def loadRegisters (m : Machine) (last : Register) : Machine :=
  { m with
    v := Vector.ofFn fun r ↦
      if r ≤ last then m.memory.get (m.i + UInt16.ofNat r.val) else m.reg r }.advance

/-! ## Drawing -/

/-- Draws `rows` bytes from the index register on as a sprite. -/
def draw (m : Machine) (x y : Register) (rows : Fin 16) : Effect :=
  match m.grid.drawSprite (m.memory.getBlock m.i rows) (m.reg x) (m.reg y) with
  | (grid, some collision) =>
    .drawn ({ m with grid }.setReg flagRegister collision.toUInt8).advance
  | (grid, none) => .fault { m with grid }

/-! ## The instruction set -/

/-- Adds a draw of the random stream to `nn`. -/
def randomize (m : Machine) (x : Register) (nn : UInt8) : Machine :=
  let (r, random) := m.random.next
  { m with random }.assign x (nn + r)

/-- Takes over the key; without one the machine stays where it is and asks again. -/
def takeKey (m : Machine) (x : Register) : Option UInt8 → Machine
  | some key => m.assign x key
  | none => m

def execute (m : Machine) : Instruction → Effect
  | .clearScreen => .done { m with grid := .blank }.advance
  | .ret => m.ret
  | .jump addr => .done { m with pc := addr }
  | .call addr => m.call addr
  | .skipEqImm x nn => .done (m.skipIf (m.reg x == nn))
  | .skipNeImm x nn => .done (m.skipIf (m.reg x != nn))
  | .skipEqReg x y => .done (m.skipIf (m.reg x == m.reg y))
  | .setImm x nn => .done (m.assign x nn)
  | .addImm x nn => .done (m.assign x (m.reg x + nn))
  | .copy x y => .done (m.assign x (m.reg y))
  | .or x y => .done (m.assign x (m.reg x ||| m.reg y))
  | .and x y => .done (m.assign x (m.reg x &&& m.reg y))
  | .xor x y => .done (m.assign x (m.reg x ^^^ m.reg y))
  | .add x y =>
    .done (m.assignFlagged x (m.reg x + m.reg y) (256 ≤ (m.reg x).toNat + (m.reg y).toNat))
  | .sub x y => .done (m.assignFlagged x (m.reg x - m.reg y) (m.reg y < m.reg x))
  | .shiftRight x => .done (m.assignFlagged x (m.reg x >>> 1) (m.reg x % 2 == 1))
  | .subN x y => .done (m.assignFlagged x (m.reg y - m.reg x) (m.reg x < m.reg y))
  | .shiftLeft x => .done (m.assignFlagged x (m.reg x <<< 1) (128 ≤ m.reg x))
  | .skipNeReg x y => .done (m.skipIf (m.reg x != m.reg y))
  | .setIndex addr => .done { m with i := addr }.advance
  | .jumpOffset addr => .done { m with pc := addr + (m.reg 0).toUInt16 }
  | .random x nn => .done (m.randomize x nn)
  | .draw x y rows => m.draw x y rows
  | .skipPressed x => .asking fun key ↦ m.skipIf (key == some (m.reg x))
  | .skipNotPressed x => .asking fun key ↦ m.skipIf (key != some (m.reg x))
  | .getDelay x => .done (m.assign x m.delay)
  | .waitKey x => .asking (m.takeKey x)
  | .setDelay x => .done { m with delay := m.reg x }.advance
  | .setSound x => .done { m with sound := m.reg x }.advance
  | .addIndex x => .done { m with i := m.i + (m.reg x).toUInt16 }.advance
  | .fontChar x => .done { m with i := Font.glyph (m.reg x) }.advance
  | .bcd x => .done (m.storeBytes (decimals (m.reg x)))
  | .store x => .done (m.storeBytes (m.registersUpTo x))
  | .load x => .done (m.loadRegisters x)

end Machine

end Chip8
