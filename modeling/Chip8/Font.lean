/-! # The built-in font

Sixteen glyphs, one for each hexadecimal digit, five rows of one byte each. -/

namespace Chip8.Font

/-- Where the glyph of digit zero starts. -/
def base : UInt16 := 0x000

/-- Bytes in one glyph. -/
def glyphSize : UInt16 := 5

/-- Where the glyph of digit `d` starts; a larger `d` points past the font. -/
def glyph (d : UInt8) : UInt16 := base + d.toUInt16 * glyphSize

/-- The rows of all glyphs, from digit zero on. -/
def bytes : Vector UInt8 80 := #v[
  0xF0, 0x90, 0x90, 0x90, 0xF0, -- 0
  0x20, 0x60, 0x20, 0x20, 0x70, -- 1
  0xF0, 0x10, 0xF0, 0x80, 0xF0, -- 2
  0xF0, 0x10, 0xF0, 0x10, 0xF0, -- 3
  0x90, 0x90, 0xF0, 0x10, 0x10, -- 4
  0xF0, 0x80, 0xF0, 0x10, 0xF0, -- 5
  0xF0, 0x80, 0xF0, 0x90, 0xF0, -- 6
  0xF0, 0x10, 0x20, 0x40, 0x40, -- 7
  0xF0, 0x90, 0xF0, 0x90, 0xF0, -- 8
  0xF0, 0x90, 0xF0, 0x10, 0xF0, -- 9
  0xF0, 0x90, 0xF0, 0x90, 0x90, -- A
  0xE0, 0x90, 0xE0, 0x90, 0xE0, -- B
  0xF0, 0x80, 0x80, 0x80, 0xF0, -- C
  0xE0, 0x90, 0x90, 0x90, 0xE0, -- D
  0xF0, 0x80, 0xF0, 0x80, 0xF0, -- E
  0xF0, 0x80, 0xF0, 0x80, 0x80] -- F

end Chip8.Font
