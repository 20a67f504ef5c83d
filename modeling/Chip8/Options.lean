/-! # Options of a machine -/

namespace Chip8

/-- How a machine is built and paced. -/
structure Options where
  /-- Cycles in a second, which is also how often the timers count down. -/
  clockSpeed : Nat := 60
  /-- Where programs are loaded and where execution starts. -/
  loadOffset : UInt16 := 0x200
  /-- Without a seed the random stream differs from run to run. -/
  seed : Option UInt64 := none
deriving DecidableEq, Repr

end Chip8
