import Chip8.Bench
import Chip8.Proofs.Decoding
import Chip8.Proofs.Loading

/-! # Blocks of registers

`FX55` copies the first registers to memory and `FX65` copies them back, both from the index
register on and around the end of memory; `FX33` puts the decimal digits of a register there. A
block that was stored is loaded as it was, and a block that was loaded is stored without a trace.

What these three make of a machine is told byte by byte and register by register, and the round
trips are derived from that alone. -/

namespace Chip8

namespace Machine

variable {m m₁ m₂ m₃ : Machine} {x : Register}

/-! ## Storing bytes -/

/-- The bytes are found behind the index register, of which the last may be before the first. -/
theorem bytes_storeBytes (m : Machine) {bs : List UInt8} (hlen : bs.length ≤ 4096) {k : Nat}
    (hk : k < bs.length) : (m.storeBytes bs).memory.bytes[(m.i.toNat + k) % 4096] = bs[k] := by
  rw [← Memory.get_add_ofNat]
  change (m.memory.setBlock m.i bs).get (m.i + .ofNat k) = bs[k]
  rw [Memory.get_setBlock _ _ _ hlen, Memory.offset_add_ofNat _ (by omega),
    List.getElem?_eq_getElem hk]
  rfl

/-- A byte to which none of the sums leads is kept. -/
theorem bytes_storeBytes_of_forall_ne (m : Machine) {bs : List UInt8} (hlen : bs.length ≤ 4096)
    {k : Nat} (hk : k < 4096) (h : ∀ j < bs.length, k ≠ (m.i.toNat + j) % 4096) :
    (m.storeBytes bs).memory.bytes[k] = m.memory.bytes[k] := by
  have hout : ¬ Memory.Covers m.i bs.length (.ofNat k) := by
    rintro ⟨j, hj, he⟩
    rw [Memory.toNat_ofNat_place hk, Nat.mod_eq_of_lt hk] at he
    exact h j hj he
  rw [Memory.covers_iff, Nat.not_lt] at hout
  rw [← Memory.get_ofNat _ hk, ← Memory.get_ofNat _ hk]
  change (m.memory.setBlock m.i bs).get (.ofNat k) = m.memory.get (.ofNat k)
  rw [Memory.get_setBlock _ _ _ hlen, List.getElem?_eq_none hout]
  rfl

theorem length_registersUpTo (m : Machine) (x : Register) :
    (m.registersUpTo x).length = x.val + 1 :=
  Instruction.length_stored_store m x

theorem getElem_registersUpTo (m : Machine) (x : Register) {k : Nat}
    (h : k < (m.registersUpTo x).length) (hk : k < 16) :
    (m.registersUpTo x)[k] = m.reg ⟨k, hk⟩ := by
  simp only [registersUpTo, List.getElem_take, Vector.getElem_toList, reg, Fin.getElem_fin]

/-! ## Copying registers -/

/-- What `FX55` makes of the machine `m`. -/
structure StoresUpTo (x : Register) (m m' : Machine) : Prop where
  stored : ∀ r ≤ x, m'.memory.bytes[(m.i.toNat + r.val) % 4096] = m.reg r
  kept : ∀ (k : Nat) (_ : k < 4096), (∀ r ≤ x, k ≠ (m.i.toNat + r.val) % 4096) →
    m'.memory.bytes[k] = m.memory.bytes[k]
  /-- The index register is left alone, and so are all the others. -/
  rest : m' = { m with memory := m'.memory, pc := m.pc + 2 }

/-- What `FX65` makes of the machine `m`. -/
structure LoadsUpTo (x : Register) (m m' : Machine) : Prop where
  loaded : ∀ r ≤ x, m'.reg r = m.memory.bytes[(m.i.toNat + r.val) % 4096]
  kept : ∀ r, x < r → m'.reg r = m.reg r
  /-- Memory is left alone, and so is the index register. -/
  rest : m' = { m with v := m'.v, pc := m.pc + 2 }

/-- What `FX33` makes of the machine `m`: the hundreds come first. -/
structure StoresDigits (x : Register) (m m' : Machine) : Prop where
  hundreds : m'.memory.bytes[m.i.toNat % 4096] = m.reg x / 100
  tens : m'.memory.bytes[(m.i.toNat + 1) % 4096] = m.reg x / 10 % 10
  ones : m'.memory.bytes[(m.i.toNat + 2) % 4096] = m.reg x % 10
  rest : m' = { m with memory := m'.memory, pc := m.pc + 2 }

theorem storesUpTo_storeBytes (m : Machine) (x : Register) :
    m.StoresUpTo x (m.storeBytes (m.registersUpTo x)) := by
  have hlength := m.length_registersUpTo x
  have hx := x.isLt
  constructor
  case stored =>
    intro r hr
    have hlt : r.val < (m.registersUpTo x).length := by
      rw [hlength]
      exact Nat.lt_succ_of_le hr
    rw [bytes_storeBytes m (by omega) hlt]
    exact m.getElem_registersUpTo x hlt r.isLt
  case kept =>
    intro k hk hne
    refine m.bytes_storeBytes_of_forall_ne (by omega) hk fun j hj ↦ ?_
    rw [hlength] at hj
    exact hne ⟨j, by omega⟩ (Nat.le_of_lt_succ hj)
  case rest => rfl

theorem reg_loadRegisters (m : Machine) (last r : Register) : (m.loadRegisters last).reg r =
    if r ≤ last then m.memory.get (m.i + UInt16.ofNat r.val) else m.reg r := by
  simp only [loadRegisters, reg_advance]
  simp [reg]

theorem loadsUpTo_loadRegisters (m : Machine) (x : Register) :
    m.LoadsUpTo x (m.loadRegisters x) := by
  constructor
  case loaded =>
    intro r hr
    rw [reg_loadRegisters, if_pos hr, Memory.get_add_ofNat]
  case kept =>
    intro r hr
    rw [reg_loadRegisters, if_neg (Fin.not_le.2 hr)]
  case rest =>
    unfold loadRegisters advance
    rfl

theorem storesDigits_storeBytes (m : Machine) (x : Register) :
    m.StoresDigits x (m.storeBytes (decimals (m.reg x))) := by
  have hlength : (decimals (m.reg x)).length = 3 := rfl
  constructor
  case hundreds => exact m.bytes_storeBytes (k := 0) (by omega) (by omega)
  case tens => exact m.bytes_storeBytes (k := 1) (by omega) (by omega)
  case ones => exact m.bytes_storeBytes (k := 2) (by omega) (by omega)
  case rest => rfl

/-! ## Round trips

Between the two instructions of a trip all may change but memory and the index register. -/

/-- What was stored is loaded. -/
theorem StoresUpTo.reg_eq (h : m.StoresUpTo x m₁) (hmemory : m₂.memory = m₁.memory)
    (hi : m₂.i = m.i) (h' : m₂.LoadsUpTo x m₃) {r : Register} (hr : r ≤ x) :
    m₃.reg r = m.reg r := by
  rw [h'.loaded r hr, ← h.stored r hr]
  simp only [hmemory, hi]

/-- What was loaded is stored where it was: the places that the block covers get their own bytes. -/
theorem LoadsUpTo.memory_eq (h : m.LoadsUpTo x m₁) (hmemory : m₂.memory = m.memory)
    (hi : m₂.i = m.i) (hreg : ∀ r ≤ x, m₂.reg r = m₁.reg r) (h' : m₂.StoresUpTo x m₃) :
    m₃.memory = m.memory := by
  have hbytes : m₃.memory.bytes = m.memory.bytes := by
    ext k hk
    by_cases hcovered : ∃ r ≤ x, k = (m₂.i.toNat + r.val) % 4096
    · obtain ⟨r, hr, rfl⟩ := hcovered
      rw [h'.stored r hr, hreg r hr, h.loaded r hr]
      simp only [hi]
    · have hne : ∀ r ≤ x, k ≠ (m₂.i.toNat + r.val) % 4096 := by
        intro r hr he
        exact hcovered ⟨r, hr, he⟩
      rw [h'.kept k hk hne, hmemory]
  exact congrArg Memory.mk hbytes

/-- The three digits of a byte. -/
theorem StoresDigits.reg_eq (h : m.StoresDigits x m₁) (hmemory : m₂.memory = m₁.memory)
    (hi : m₂.i = m.i) (h' : m₂.LoadsUpTo 2 m₃) :
    m₃.reg 0 = m.reg x / 100 ∧ m₃.reg 1 = m.reg x / 10 % 10 ∧ m₃.reg 2 = m.reg x % 10 := by
  rw [← h.hundreds, ← h.tens, ← h.ones, h'.loaded 0 (by decide), h'.loaded 1 (by decide),
    h'.loaded 2 (by decide)]
  simp only [hmemory, hi]
  exact ⟨rfl, rfl, rfl⟩

/-- The digits of a byte, as numbers. -/
theorem digits_eq (b : UInt8) : (b / 100).toNat ≤ 9 ∧ (b / 10 % 10).toNat ≤ 9 ∧ (b % 10).toNat ≤ 9 ∧
    100 * (b / 100).toNat + 10 * (b / 10 % 10).toNat + (b % 10).toNat = b.toNat := by
  have hb := b.toNat_lt
  simp only [UInt8.toNat_div, UInt8.toNat_mod, UInt8.reduceToNat]
  omega

end Machine

namespace Computer

open Instruction

variable {ε : Type} {host : Host ε} {c : Computer ε} {x : Register}

/-! ## Execution -/

/-- Executes a word, wherever it stands. -/
def executeWord (host : Host ε) (c : Computer ε) (w : UInt16) : Except Halt Unit × Computer ε :=
  match decode w with
  | .error e => (.error (.error e), c)
  | .ok i => c.perform host (c.machine.execute i)

/-- A step executes the word at the program counter. -/
theorem step_eq_executeWord (host : Host ε) (c : Computer ε) :
    c.step host = c.executeWord host c.machine.fetch := rfl

theorem executeWord_of_done {w : UInt16} {i : Instruction} {m' : Machine} (hi : decode? w = some i)
    (hx : c.machine.execute i = .done m') :
    c.executeWord host w = (.ok (), { c with machine := m' }) := by
  rw [executeWord, decode_eq_ok_iff.2 hi]
  simp only [hx]
  rfl

theorem executeWord_store (host : Host ε) (c : Computer ε) (x : Register) :
    ∃ m', c.executeWord host (wordOfByte 0xF x 0x55) = (.ok (), { c with machine := m' }) ∧
      c.machine.StoresUpTo x m' :=
  ⟨_, executeWord_of_done (decode?_transfer (by decide)) rfl, c.machine.storesUpTo_storeBytes x⟩

theorem executeWord_load (host : Host ε) (c : Computer ε) (x : Register) :
    ∃ m', c.executeWord host (wordOfByte 0xF x 0x65) = (.ok (), { c with machine := m' }) ∧
      c.machine.LoadsUpTo x m' :=
  ⟨_, executeWord_of_done (decode?_transfer (by decide)) rfl, c.machine.loadsUpTo_loadRegisters x⟩

theorem executeWord_digits (host : Host ε) (c : Computer ε) (x : Register) :
    ∃ m', c.executeWord host (wordOfByte 0xF x 0x33) = (.ok (), { c with machine := m' }) ∧
      c.machine.StoresDigits x m' :=
  ⟨_, executeWord_of_done (decode?_transfer (by decide)) rfl, c.machine.storesDigits_storeBytes x⟩

/-- Where blocks go that are copied to memory or from it, and that they come back. Each second word
is executed by a computer `c₂` of which no more is known than is said. -/
structure BlocksReturn (host : Host ε) (c : Computer ε) (x : Register) : Prop where
  store : ∃ m₁, c.executeWord host (wordOfByte 0xF x 0x55) = (.ok (), { c with machine := m₁ }) ∧
    c.machine.StoresUpTo x m₁ ∧
    ∀ c₂ : Computer ε, c₂.machine.memory = m₁.memory → c₂.machine.i = c.machine.i →
      ∃ m₃, c₂.executeWord host (wordOfByte 0xF x 0x65) = (.ok (), { c₂ with machine := m₃ }) ∧
        c₂.machine.LoadsUpTo x m₃ ∧ ∀ r ≤ x, m₃.reg r = c.machine.reg r
  load : ∃ m₁, c.executeWord host (wordOfByte 0xF x 0x65) = (.ok (), { c with machine := m₁ }) ∧
    c.machine.LoadsUpTo x m₁ ∧
    ∀ c₂ : Computer ε, c₂.machine.memory = c.machine.memory → c₂.machine.i = c.machine.i →
      (∀ r ≤ x, c₂.machine.reg r = m₁.reg r) →
      ∃ m₃, c₂.executeWord host (wordOfByte 0xF x 0x55) = (.ok (), { c₂ with machine := m₃ }) ∧
        m₃.memory = c.machine.memory
  digits : ∃ m₁, c.executeWord host (wordOfByte 0xF x 0x33) = (.ok (), { c with machine := m₁ }) ∧
    c.machine.StoresDigits x m₁ ∧
    ∀ c₂ : Computer ε, c₂.machine.memory = m₁.memory → c₂.machine.i = c.machine.i →
      ∃ m₃, c₂.executeWord host (wordOfByte 0xF 2 0x65) = (.ok (), { c₂ with machine := m₃ }) ∧
        (m₃.reg 0).toNat ≤ 9 ∧ (m₃.reg 1).toNat ≤ 9 ∧ (m₃.reg 2).toNat ≤ 9 ∧
        100 * (m₃.reg 0).toNat + 10 * (m₃.reg 1).toNat + (m₃.reg 2).toNat = (c.machine.reg x).toNat

/-- Whatever the index register and the registers are, blocks come back as they went. -/
theorem blocks_return (host : Host ε) (c : Computer ε) (x : Register) : BlocksReturn host c x := by
  constructor
  case store =>
    obtain ⟨m₁, hc, hm⟩ := executeWord_store host c x
    refine ⟨m₁, hc, hm, fun c₂ hmemory hi ↦ ?_⟩
    obtain ⟨m₃, hc₂, hm₃⟩ := executeWord_load host c₂ x
    exact ⟨m₃, hc₂, hm₃, fun r hr ↦ hm.reg_eq hmemory hi hm₃ hr⟩
  case load =>
    obtain ⟨m₁, hc, hm⟩ := executeWord_load host c x
    refine ⟨m₁, hc, hm, fun c₂ hmemory hi hreg ↦ ?_⟩
    obtain ⟨m₃, hc₂, hm₃⟩ := executeWord_store host c₂ x
    exact ⟨m₃, hc₂, hm.memory_eq hmemory hi hreg hm₃⟩
  case digits =>
    obtain ⟨m₁, hc, hm⟩ := executeWord_digits host c x
    refine ⟨m₁, hc, hm, fun c₂ hmemory hi ↦ ?_⟩
    obtain ⟨m₃, hc₂, hm₃⟩ := executeWord_load host c₂ 2
    obtain ⟨h₀, h₁, h₂⟩ := hm.reg_eq hmemory hi hm₃
    refine ⟨m₃, hc₂, ?_⟩
    rw [h₀, h₁, h₂]
    exact Machine.digits_eq (c.machine.reg x)

/-- A machine with the index register at the end of the addresses and a different byte in each
register. -/
def atLastAddress : Computer Bench :=
  let c := onBench .null
  { c with machine := { c.machine with i := 0xFFFF, v := Vector.ofFn fun r ↦ 100 + .ofNat r.val } }

/-- The same computer with the machine `m`, the registers of which have been cleared. -/
def withCleared (m : Machine) : Computer Bench :=
  { atLastAddress with machine := { m with v := Vector.replicate 16 0 } }

/-- All registers are stored from the last place on, and loaded after they have been cleared: the
second register has gone over the font. -/
theorem blocks_return_overFont : ∃ m₁ m₃,
    atLastAddress.executeWord Bench.host 0xFF55 = (.ok (), { atLastAddress with machine := m₁ }) ∧
      m₁.memory.bytes[0] = 101 ∧ atLastAddress.machine.memory.bytes[0] = 0xF0 ∧
      (withCleared m₁).executeWord Bench.host 0xFF65 =
        (.ok (), { withCleared m₁ with machine := m₃ }) ∧
      m₃.reg 15 = 115 := by
  obtain ⟨m₁, hc, hm, hload⟩ := (blocks_return Bench.host atLastAddress 15).store
  have hi : (withCleared m₁).machine.i = atLastAddress.machine.i :=
    (congrArg Machine.i hm.rest).trans rfl
  obtain ⟨m₃, hc₂, -, hreg⟩ := hload (withCleared m₁) rfl hi
  refine ⟨m₁, m₃, hc, ?_, by decide +kernel, hc₂, ?_⟩
  · exact (hm.stored 1 (by decide)).trans (by decide +kernel)
  · exact (hreg 15 (by decide)).trans (by decide +kernel)

end Computer

end Chip8
