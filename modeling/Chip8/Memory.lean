import Chip8.Font
import Chip8.Source

/-! # Memory

4096 bytes behind 16-bit addresses. Single bytes are found at the address modulo 4096; bulk writes
do not wrap and either fit or change nothing. -/

namespace Chip8

structure Memory where
  bytes : Vector UInt8 4096
deriving DecidableEq

namespace Memory

/-- How many bytes there are. -/
def size : Nat := 4096

/-- The place that an address stands for: only its low twelve bits count. -/
def place (a : UInt16) : Fin 4096 := ⟨a.toNat % 4096, Nat.mod_lt _ (by decide)⟩

def zeros : Memory := ⟨Vector.replicate 4096 0⟩

/-! ## Single bytes -/

def get (m : Memory) (a : UInt16) : UInt8 := m.bytes[place a]

def set (m : Memory) (a : UInt16) (b : UInt8) : Memory :=
  ⟨m.bytes.set (place a) b (place a).isLt⟩

theorem get_set (m : Memory) (a c : UInt16) (b : UInt8) :
    (m.set a b).get c = if place a = place c then b else m.get c := by
  simp only [get, set, Fin.getElem_fin, Vector.getElem_set, Fin.ext_iff]

/-- The byte that is `k` places behind `a` is found around the end of memory. -/
theorem get_add_ofNat (m : Memory) (a : UInt16) (k : Nat) :
    m.get (a + UInt16.ofNat k) = m.bytes[(a.toNat + k) % 4096] := by
  have hplace : (a + UInt16.ofNat k).toNat % 4096 = (a.toNat + k) % 4096 := by
    rw [UInt16.toNat_add, UInt16.toNat_ofNat']
    omega
  simp only [get, place, Fin.getElem_fin, hplace]

@[simp] theorem get_zeros (a : UInt16) : zeros.get a = 0 := by simp [get, zeros]

/-- Two bytes, the higher one first; the address of the second wraps at sixteen bits. -/
def word (m : Memory) (a : UInt16) : UInt16 :=
  UInt16.ofNat (256 * (m.get a).toNat + (m.get (a + 1)).toNat)

/-! ## Blocks

A block is written and read byte by byte at consecutive addresses, each of which wraps. -/

def setBlock (a : UInt16) : List UInt8 → Memory → Memory
  | [], m => m
  | b :: bs, m => setBlock (a + 1) bs (m.set a b)

def getBlock (m : Memory) (a : UInt16) : Nat → List UInt8
  | 0 => []
  | n + 1 => m.get a :: getBlock m (a + 1) n

@[simp] theorem length_getBlock (m : Memory) (a : UInt16) (n : Nat) :
    (m.getBlock a n).length = n := by
  induction n generalizing a with
  | zero => rfl
  | succ n ih => rw [getBlock, List.length_cons, ih]

/-- A block holds the bytes at consecutive addresses. -/
theorem getElem?_getBlock (m : Memory) (a : UInt16) {n k : Nat} (h : k < n) :
    (m.getBlock a n)[k]? = some (m.get (a + UInt16.ofNat k)) := by
  induction n generalizing a k with
  | zero => exact absurd h (Nat.not_lt_zero k)
  | succ n ih =>
    cases k with
    | zero => simp [getBlock]
    | succ k =>
      rw [getBlock, List.getElem?_cons_succ, ih (a + 1) (Nat.lt_of_succ_lt_succ h),
        UInt16.add_assoc, UInt16.add_comm 1, UInt16.ofNat_add]
      rfl

/-- How many places `c` lies behind `a`, around the end of memory. -/
def offset (a c : UInt16) : Nat := (c - a).toNat % 4096

theorem offset_eq_zero_iff {a c : UInt16} : offset a c = 0 ↔ place a = place c := by
  have ha := a.toNat_lt
  have hc := c.toNat_lt
  simp only [offset, place, UInt16.toNat_sub, Fin.mk.injEq]
  omega

/-- One place on, an address is one place nearer, or as far away as can be. -/
theorem offset_add_one (a c : UInt16) :
    offset (a + 1) c = if offset a c = 0 then 4095 else offset a c - 1 := by
  have ha := a.toNat_lt
  have hc := c.toNat_lt
  simp only [offset, UInt16.toNat_sub, UInt16.toNat_add, UInt16.toNat_one]
  split <;> omega

theorem offset_add_ofNat (a : UInt16) {k : Nat} (hk : k < 4096) :
    offset a (a + UInt16.ofNat k) = k := by
  have hlt : k < 2 ^ 16 := Nat.lt_trans hk (by decide)
  rw [offset, UInt16.add_comm a, UInt16.add_sub_cancel, UInt16.toNat_ofNat_of_lt' hlt]
  exact Nat.mod_eq_of_lt hk

/-- Writing a block changes the bytes it covers and no others. -/
theorem get_setBlock (m : Memory) (a c : UInt16) {bs : List UInt8} (h : bs.length ≤ 4096) :
    (setBlock a bs m).get c = (bs[offset a c]?).getD (m.get c) := by
  induction bs generalizing a m with
  | nil => rfl
  | cons b bs ih =>
    rw [List.length_cons] at h
    rw [setBlock, ih (m.set a b) (a + 1) (by omega), offset_add_one, get_set]
    by_cases hz : offset a c = 0
    · rw [if_pos hz, hz, if_pos (offset_eq_zero_iff.1 hz), List.getElem?_eq_none (by omega)]
      rfl
    · obtain ⟨k, hk⟩ := Nat.exists_eq_succ_of_ne_zero hz
      rw [if_neg hz, if_neg (mt offset_eq_zero_iff.2 hz), hk]
      rfl

/-- Memory before anything is loaded: the font at its place and zeros elsewhere. -/
def fresh : Memory := setBlock Font.base Font.bytes.toList zeros

theorem get_fresh (a : UInt16) :
    fresh.get a = (Font.bytes.toList[offset Font.base a]?).getD 0 := by
  rw [fresh, get_setBlock _ _ _ (by simp), get_zeros]

/-! ## Bulk access -/

/-- The bytes from `a` to the end of memory. -/
def available (a : UInt16) : Nat := size - a.toNat

/-- Writes all of `data` from `a` on, or nothing where it does not fit. -/
def write (m : Memory) (a : UInt16) (data : List UInt8) : Except Error Memory :=
  if data.length ≤ available a then .ok (setBlock a data m)
  else .error (.loadOverflow data.length (available a) a)

/-- Reads a source to its end and writes what it gave; answers the number of bytes. -/
def load (m : Memory) (a : UInt16) (source : Source) : Except Error (Nat × Memory) :=
  match source.readAll with
  | .error e => .error (.load e)
  | .ok data => (m.write a data).map fun m' ↦ (data.length, m')

theorem write_eq_ok_iff {m m' : Memory} {a : UInt16} {data : List UInt8} :
    m.write a data = .ok m' ↔ data.length ≤ available a ∧ m' = setBlock a data m := by
  unfold write
  split
  · next h => simp [h, eq_comm]
  · next h => simp [h]

theorem load_eq_ok_iff {m m' : Memory} {a : UInt16} {source : Source} {n : Nat} :
    m.load a source = .ok (n, m') ↔
      ∃ data, source.readAll = .ok data ∧ n = data.length ∧ m.write a data = .ok m' := by
  unfold load
  cases source.readAll with
  | error e => simp
  | ok data =>
    simp only [Except.ok.injEq, exists_eq_left']
    cases m.write a data <;> simp [Except.map, eq_comm]

/-- The `n` bytes from `a` on, if they end within memory. -/
def slice? (m : Memory) (a : UInt16) (n : Nat) : Option (List UInt8) :=
  if a.toNat + n ≤ size then some (m.getBlock a n) else none

/-- Sets `n` bytes from `a` on to `b`, if they end within memory. -/
def fillSlice? (m : Memory) (a : UInt16) (n : Nat) (b : UInt8) : Option Memory :=
  if a.toNat + n ≤ size then some (setBlock a (List.replicate n b) m) else none

end Memory

end Chip8
