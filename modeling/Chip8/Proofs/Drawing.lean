import Chip8.Bench
import Chip8.Proofs.Decoding
import Chip8.Proofs.Sprites
import Chip8.Proofs.Step

/-! # Drawing sprites

What the instruction `DXYN` makes of a machine and offers to the display. Its sprite lies in memory
from the index register on, and both memory and the grid are gone around at their ends. -/

namespace Chip8

namespace Machine

open Grid

variable {m : Machine} {x y : Register} {rows : Fin 16}

/-- The byte that is `k` places behind the index register, around the end of memory. -/
def spriteRow (m : Machine) (k : Nat) : UInt8 :=
  m.memory.bytes.get ⟨(m.i.toNat + k) % 4096, Nat.mod_lt _ (by decide)⟩

/-- The bit in row `k` and column `j` of a sprite is set. -/
def SpriteBit (m : Machine) (k j : Nat) : Prop := (m.spriteRow k).toNat.testBit (7 - j) = true

/-- A pixel of the box was lit that a sprite with its corner in `x` and `y` covers. -/
def Touches (m : Machine) (x y : Register) (rows : Fin 16) : Prop :=
  ∃ k < rows.val, ∃ j < 8,
    m.grid.get (.wrapped ((m.reg x).toNat + j) ((m.reg y).toNat + k)) = true

instance (m : Machine) (x y : Register) (rows : Fin 16) : Decidable (m.Touches x y rows) :=
  inferInstanceAs (Decidable (∃ k < rows.val, ∃ j < 8, _ = true))

/-- What `DXYN` makes of the machine `m`, from which all registers are read. -/
structure Draws (x y : Register) (rows : Fin 16) (m m' : Machine) : Prop where
  /-- The pixels that are flipped are those under a bit that is set. -/
  pixel : ∀ (p : Fin width) (q : Fin height), m'.grid.get (.at p q) ≠ m.grid.get (.at p q) ↔
    ∃ k < rows.val, ∃ j < 8, p.val = ((m.reg x).toNat + j) % 64 ∧
      q.val = ((m.reg y).toNat + k) % 32 ∧ m.SpriteBit k j
  /-- Bits that are not set count, too. -/
  flag : m'.reg flagRegister = if m.Touches x y rows then 1 else 0
  others : ∀ r, r ≠ flagRegister → m'.reg r = m.reg r
  pc : m'.pc = m.pc + 2
  rest : m' = { m with grid := m'.grid, v := m'.v, pc := m'.pc }

theorem getElem_getBlock_eq_spriteRow (m : Machine) {n k : Nat}
    (h : k < (m.memory.getBlock m.i n).length) :
    (m.memory.getBlock m.i n)[k] = m.spriteRow k := by
  have hk : k < n := by simpa using h
  have hget := m.memory.getElem?_getBlock m.i hk
  rw [List.getElem?_eq_getElem h, Option.some_inj] at hget
  exact hget.trans (m.memory.get_add_ofNat m.i k)

/-- The visits of the sprite that the instruction draws. -/
def visits (m : Machine) (x y : Register) (rows : Fin 16) : List Visit :=
  spriteVisits (m.reg x).toNat (m.reg y).toNat (m.memory.getBlock m.i rows)

theorem mem_visits {v : Visit} : v ∈ m.visits x y rows ↔ ∃ k < rows.val, ∃ j : Fin 8,
    v = (.wrapped ((m.reg x).toNat + j.val) ((m.reg y).toNat + k), bit (m.spriteRow k) j) := by
  simp only [visits, mem_spriteVisits, getElem_getBlock_eq_spriteRow, Memory.length_getBlock,
    exists_prop]

theorem nodup_visits (m : Machine) (x y : Register) (rows : Fin 16) :
    ((m.visits x y rows).map Prod.fst).Nodup := by
  refine nodup_spriteVisits ?_
  rw [Memory.length_getBlock]
  exact Nat.le_trans (Nat.le_of_lt rows.isLt) (by decide)

/-- The instruction leads to a drawing whatever the registers hold. -/
theorem draw_eq (m : Machine) (x y : Register) (rows : Fin 16) :
    m.draw x y rows = .drawn ({ m with
      grid := ((⟨m.grid, false⟩ : Stroke).visits (m.visits x y rows)).grid }.setReg flagRegister
        ((⟨m.grid, false⟩ : Stroke).visits (m.visits x y rows)).collision.toUInt8).advance := by
  have hfit : (m.reg y).toNat % height + (m.memory.getBlock m.i rows).length ≤ 2 * height := by
    rw [Memory.length_getBlock]
    simp only [height]
    omega
  rw [draw, drawSprite_eq_visits _ hfit]
  rfl

theorem visited_iff {p : Fin width} {q : Fin height} :
    (Cell.at p q, true) ∈ m.visits x y rows ↔
      ∃ k < rows.val, ∃ j < 8, p.val = ((m.reg x).toNat + j) % 64 ∧
        q.val = ((m.reg y).toNat + k) % 32 ∧ m.SpriteBit k j := by
  rw [mem_visits]
  refine exists_congr fun k ↦ and_congr_right fun _ ↦ ?_
  constructor
  · rintro ⟨j, he⟩
    obtain ⟨hcell, hbit⟩ := Prod.mk.inj he
    obtain ⟨hp, hq⟩ := Cell.at_eq_wrapped.1 hcell
    exact ⟨j, j.isLt, hp, hq, hbit.symm⟩
  · rintro ⟨j, hj, hp, hq, hbit⟩
    exact ⟨⟨j, hj⟩, Prod.ext (Cell.at_eq_wrapped.2 ⟨hp, hq⟩) hbit.symm⟩

theorem collides_iff :
    ((m.visits x y rows).any fun v ↦ m.grid.get v.1) = true ↔ m.Touches x y rows := by
  rw [List.any_eq_true]
  constructor
  · rintro ⟨_, hv, hlit⟩
    obtain ⟨k, hk, j, rfl⟩ := mem_visits.1 hv
    exact ⟨k, hk, j, j.isLt, hlit⟩
  · rintro ⟨k, hk, j, hj, hlit⟩
    exact ⟨_, mem_visits.2 ⟨k, hk, ⟨j, hj⟩, rfl⟩, hlit⟩

theorem exists_draws (m : Machine) (x y : Register) (rows : Fin 16) :
    ∃ m', m.draw x y rows = .drawn m' ∧ Draws x y rows m m' := by
  refine ⟨_, m.draw_eq x y rows, ?_⟩
  constructor
  case pixel =>
    intro p q
    rw [← visited_iff]
    show ((⟨m.grid, false⟩ : Stroke).visits (m.visits x y rows)).grid.get (.at p q) ≠ _ ↔ _
    rw [Stroke.get_visits_of_nodup (m.nodup_visits x y rows)]
    by_cases hv : (Cell.at p q, true) ∈ m.visits x y rows <;> simp [hv]
  case flag =>
    rw [reg_advance, reg_setReg, if_pos rfl,
      Stroke.collision_visits_of_nodup (m.nodup_visits x y rows), Bool.false_or]
    simp only [← collides_iff]
    cases (m.visits x y rows).any fun v ↦ m.grid.get v.1 <;> rfl
  case others =>
    intro r hr
    rw [reg_advance, reg_setReg, if_neg hr.symm]
    rfl
  case pc => rfl
  case rest => rfl

end Machine

namespace Computer

open Instruction

/-- The word `DXYN` at the program counter draws a sprite without a fault, whatever the registers
are, and offers the display the grid that the machine is left with, whether or not it takes it. -/
theorem step_draws {ε : Type} (host : Host ε) (c : Computer ε) (x y : Register) (rows : Fin 16)
    (h : c.machine.fetch = wordOfNibbles 0xD x y rows) :
    ∃ m', Machine.Draws x y rows c.machine m' ∧
      c.step host = ((host.draw m'.grid c.outside).1.mapError fun e ↦ .error (.display e),
        ⟨m', (host.draw m'.grid c.outside).2⟩) ∧
      (c.step host).1 ≠ .error .fault := by
  obtain ⟨m', hd, hm⟩ := c.machine.exists_draws x y rows
  have hi : decode c.machine.fetch = .ok (.draw x y rows) :=
    decode_eq_ok_iff.2 (h ▸ decode?_draw x y rows)
  have hs : c.step host = ((host.draw m'.grid c.outside).1.mapError fun e ↦ .error (.display e),
      ⟨m', (host.draw m'.grid c.outside).2⟩) := by
    rw [step_of_decode hi, Machine.execute, hd, perform_drawn]
  refine ⟨m', hm, hs, fun hf ↦ ?_⟩
  rw [hs] at hf
  rcases hd : (host.draw m'.grid c.outside).1 with e | _
  all_goals
    rw [hd] at hf
    cases hf

/-- The word `DFFF` before a flag register of 255 and an index register at the end of the
addresses. -/
def cornered : Computer Bench :=
  let c := ((onBench .null).load (.ofBytes [0xDF, 0xFF])).2
  { c with machine := { c.machine with i := 0xFFFF, v := Vector.replicate 16 255 } }

/-- The second row is the first one of the font, and its second bit goes around both edges. -/
theorem step_draws_cornered : ∃ m', Machine.Draws 15 15 15 cornered.machine m' ∧
    cornered.step Bench.host = (.ok (), { cornered with machine := m' }) ∧
      m'.grid.get (.at 0 0) = true ∧ m'.reg 15 = 0 := by
  have hword : cornered.machine.fetch = wordOfNibbles 0xD 15 15 (15 : Fin 16) := by decide +kernel
  obtain ⟨m', hm, hs, _⟩ := step_draws Bench.host cornered 15 15 15 hword
  have hflipped : m'.grid.get (.at 0 0) ≠ cornered.machine.grid.get (.at 0 0) :=
    (hm.pixel 0 0).2 ⟨1, by decide, 1, by decide, by decide +kernel, by decide +kernel,
      by unfold Machine.SpriteBit; decide +kernel⟩
  have hblank (p : Grid.Cell) : cornered.machine.grid.get p = false := Grid.get_blank p
  have hclear : ¬ cornered.machine.Touches 15 15 15 := by
    rintro ⟨k, _, j, _, hlit⟩
    rw [hblank] at hlit
    cases hlit
  rw [hblank, ne_eq, Bool.not_eq_false] at hflipped
  exact ⟨m', hm, hs, hflipped, hm.flag.trans (if_neg hclear)⟩

end Computer

end Chip8
