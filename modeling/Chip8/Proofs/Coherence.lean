import Chip8.Proofs.Footprint
import Chip8.Proofs.Invariant

/-! # Coherence of memory

What a byte of memory is can be told from what has been done to it. Loads and writes put bytes into
memory, and so do two of the instructions; each does so from an address of its own on, some around
the end of memory and some not. A byte is the one that was put at its place last, and where none
was, the one that memory started with. -/

namespace Chip8

namespace Memory

instance (a : UInt16) (n : Nat) (c : UInt16) : Decidable (Covers a n c) :=
  decidable_of_iff _ covers_iff.symm

/-- The byte at the place of `a` before anything is put there. -/
def unwritten (a : UInt16) : UInt8 :=
  if h : a.toNat % 4096 < 80 then Font.bytes[a.toNat % 4096] else 0

theorem get_fresh_eq_unwritten (a : UInt16) : fresh.get a = unwritten a := by
  have hoffset : offset Font.base a = a.toNat % 4096 := by rw [offset, Font.base, UInt16.sub_zero]
  rw [get_fresh, hoffset, unwritten]
  split
  · next h => simp [h]
  · next h => simp [h]

theorem unwritten_ofNat (k : Fin 80) : unwritten (UInt16.ofNat k) = Font.bytes[k] := by
  have hplace : (UInt16.ofNat k).toNat % 4096 = k := by
    rw [UInt16.toNat_ofNat']
    omega
  simp only [unwritten, hplace, dif_pos k.isLt, Fin.getElem_fin]

theorem toNat_word (m : Memory) (a : UInt16) :
    (m.word a).toNat = 256 * (m.get a).toNat + (m.get (a + 1)).toNat := by
  have hhigh := (m.get a).toNat_lt
  have hlow := (m.get (a + 1)).toNat_lt
  rw [word, UInt16.toNat_ofNat']
  omega

end Memory

/-! ## Puts -/

/-- Bytes that are put into memory, from the place of an address on and around its end. -/
structure Put where
  base : UInt16
  bytes : List UInt8
  /-- No byte is put over another. -/
  fits : bytes.length ≤ Memory.size

namespace Put

variable {p : Put} {a : UInt16}

def Covers (p : Put) (a : UInt16) : Prop := Memory.Covers p.base p.bytes.length a

instance (p : Put) (a : UInt16) : Decidable (p.Covers a) :=
  inferInstanceAs (Decidable (Memory.Covers _ _ _))

/-- The byte that is put at the place of `a`, if it is covered. -/
def byte? (p : Put) (a : UInt16) : Option UInt8 := p.bytes[Memory.offset p.base a]?

theorem byte?_eq_none_iff : p.byte? a = none ↔ ¬ p.Covers a := by
  rw [byte?, List.getElem?_eq_none_iff, Covers, Memory.covers_iff, Nat.not_lt]

/-- The byte at the place of `a` after these puts, the latest of which comes first. -/
def recalled (puts : List Put) (a : UInt16) : UInt8 :=
  (puts.findSome? (·.byte? a)).getD (Memory.unwritten a)

end Put

namespace Memory

/-- Memory after a put, if there is one. -/
def withPut (m : Memory) : Option Put → Memory
  | some p => m.setBlock p.base p.bytes
  | none => m

theorem get_withPut (m : Memory) (put : Option Put) (a : UInt16) :
    (m.withPut put).get a = (put.bind (·.byte? a)).getD (m.get a) := by
  cases put with
  | none => rfl
  | some p => exact get_setBlock m p.base a p.fits

/-! ### Bulk writes -/

theorem length_le_size {m m' : Memory} {a : UInt16} {data : List UInt8}
    (h : m.write a data = .ok m') : data.length ≤ size :=
  Nat.le_trans (write_eq_ok_iff.1 h).1 (Nat.sub_le _ _)

/-- Memory after a write, which may have failed. -/
def written (m : Memory) (a : UInt16) (data : List UInt8) : Memory :=
  match m.write a data with
  | .ok m' => m'
  | .error _ => m

/-- What a write puts, if it succeeds. -/
def writePut? (m : Memory) (a : UInt16) (data : List UInt8) : Option Put :=
  match h : m.write a data with
  | .ok _ => some ⟨a, data, length_le_size h⟩
  | .error _ => none

theorem written_eq (m : Memory) (a : UInt16) (data : List UInt8) :
    m.written a data = m.withPut (m.writePut? a data) := by
  unfold written writePut?
  split
  · next hw =>
    split
    · exact (write_eq_ok_iff.1 hw).2
    · next he => cases hw.symm.trans he
  · next he =>
    split
    · next hw => cases hw.symm.trans he
    · rfl

/-- Memory after a load, which may have failed. -/
def loaded (m : Memory) (a : UInt16) (source : Source) : Memory :=
  match m.load a source with
  | .ok (_, m') => m'
  | .error _ => m

/-- What a load puts, if the source gives all its bytes and they are written. -/
def loadPut? (m : Memory) (a : UInt16) (source : Source) : Option Put :=
  match source.readAll with
  | .ok data => m.writePut? a data
  | .error _ => none

theorem loaded_eq (m : Memory) (a : UInt16) (source : Source) :
    m.loaded a source = m.withPut (m.loadPut? a source) := by
  rw [loaded, loadPut?, load]
  cases source.readAll with
  | error => rfl
  | ok data =>
    simp only [← written_eq, written]
    cases m.write a data <;> rfl

end Memory

/-! ## Instructions -/

namespace Machine

theorem memory_skipIf (m : Machine) (condition : Bool) :
    (m.skipIf condition).memory = m.memory := by
  cases condition <;> rfl

theorem memory_takeKey (m : Machine) (x : Register) (key : Option UInt8) :
    (m.takeKey x key).memory = m.memory := by
  cases key <;> rfl

theorem memory_loadRegisters (m : Machine) (last : Register) :
    (m.loadRegisters last).memory = m.memory := by
  unfold loadRegisters advance
  rfl

/-- What an instruction puts into memory, which for most of them is nothing. -/
def put (m : Machine) (i : Instruction) : Put :=
  ⟨m.i, i.stored m, Nat.le_trans (i.length_stored_le m) (by decide)⟩

/-- Whatever comes of an instruction, memory is left with the bytes that it stores. -/
theorem memory_execute (m : Machine) (i : Instruction) :
    (m.execute i).Leaves fun m' ↦ m'.memory = m.memory.setBlock m.i (i.stored m) := by
  cases i with
  | ret =>
    rw [execute, ret]
    split
    · exact trivial
    · split <;> exact rfl
  | call addr =>
    rw [execute, call]
    split
    · exact trivial
    · split
      · exact rfl
      · split <;> exact rfl
  | draw x y rows =>
    obtain ⟨_, _, _, hd⟩ := m.draw_cases x y rows
    rw [execute, hd]
    exact rfl
  | skipEqImm | skipNeImm | skipEqReg | skipNeReg => exact m.memory_skipIf _
  | skipPressed | skipNotPressed => exact fun _ ↦ m.memory_skipIf _
  | waitKey x => exact m.memory_takeKey x
  | load x => exact m.memory_loadRegisters x
  | _ => exact rfl

/-- An instruction stores nothing, or the machine finishes it by itself. -/
theorem stored_eq_nil_or_done (m : Machine) (i : Instruction) :
    i.stored m = [] ∨ m.execute i = .done (m.storeBytes (i.stored m)) := by
  cases i with
  | bcd | store => exact .inr rfl
  | _ => exact .inl rfl

end Machine

namespace Computer

open Instruction

variable {ε : Type} {host : Host ε} {c c' : Computer ε} {log : List (Machine × Instruction)}

/-- What a step puts, if it succeeds. -/
def stepPut? (host : Host ε) (c : Computer ε) : Option Put :=
  match c.step host with
  | (.ok (), _) => (decode? c.machine.fetch).map c.machine.put
  | (.error _, _) => none

theorem memory_step (host : Host ε) (c : Computer ε) :
    (c.step host).2.machine.memory = c.machine.memory.withPut (c.stepPut? host) := by
  cases hd : decode? c.machine.fetch with
  | none =>
    rw [stepPut?, step_of_unknown (decode_eq_error_iff.2 ⟨hd, rfl⟩)]
    rfl
  | some i =>
    have hstep : c.step host = c.perform host (c.machine.execute i) :=
      step_of_decode (decode_eq_ok_iff.2 hd)
    obtain hnil | hdone := c.machine.stored_eq_nil_or_done i
    · have hsame : c.machine.memory.setBlock c.machine.i (i.stored c.machine) =
          c.machine.memory := by
        rw [hnil, Memory.setBlock]
      have hmemory : (c.step host).2.machine.memory =
          c.machine.memory.setBlock c.machine.i (i.stored c.machine) := by
        rw [hstep]
        exact perform_leaves (c.machine.memory_execute i) hsame.symm
      rw [hmemory, stepPut?]
      split
      · rw [hd]
        rfl
      · exact hsame
    · rw [stepPut?, hstep, hdone, hd]
      rfl

theorem memory_load (c : Computer ε) (source : Source) :
    (c.load source).2.machine.memory = c.machine.memory.loaded c.machine.loadOffset source := by
  rw [load, Machine.load, Memory.loaded]
  cases c.machine.memory.load c.machine.loadOffset source <;> rfl

theorem memory_countDown (host : Host ε) (c : Computer ε) :
    (c.countDown host).2.machine.memory = c.machine.memory := by
  obtain ⟨_, h⟩ | ⟨_, _, _, h⟩ | ⟨_, _, _, _, h⟩ := countDown_cases host c
  all_goals exact congrArg (fun r ↦ r.2.machine.memory) h

/-! ## Moves -/

/-- What can be done to a computer, or to its memory from outside: a source can be read, a list of
bytes written and a single byte set at any address. -/
inductive Move (ε : Type)
  | load (source : Source)
  | step
  | countDown
  | outside (outside : ε)
  | runState (s : RunState)
  | read (a : UInt16) (source : Source)
  | write (a : UInt16) (data : List UInt8)
  | set (a : UInt16) (b : UInt8)

def withMemory (c : Computer ε) (memory : Memory) : Computer ε :=
  { c with machine := { c.machine with memory } }

namespace Move

/-- The computer after a move, whether or not it succeeds. -/
def make (host : Host ε) (c : Computer ε) : Move ε → Computer ε
  | .load source => (c.load source).2
  | .step => (c.step host).2
  | .countDown => (c.countDown host).2
  | .outside e => { c with outside := e }
  | .runState s => c.setRunState s
  | .read a source => c.withMemory (c.machine.memory.loaded a source)
  | .write a data => c.withMemory (c.machine.memory.written a data)
  | .set a b => c.withMemory (c.machine.memory.set a b)

/-- What a move puts into memory; one that fails puts nothing. -/
def put? (host : Host ε) (c : Computer ε) : Move ε → Option Put
  | .load source => c.machine.memory.loadPut? c.machine.loadOffset source
  | .step => c.stepPut? host
  | .countDown | .outside _ | .runState _ => none
  | .read a source => c.machine.memory.loadPut? a source
  | .write a data => c.machine.memory.writePut? a data
  | .set a b => some ⟨a, [b], Nat.le_of_ble_eq_true rfl⟩

/-- The moves that write to memory from outside. -/
def Pokes : Move ε → Prop
  | .read .. | .write .. | .set .. => True
  | _ => False

/-- A move changes memory by what it puts. -/
theorem memory_make (host : Host ε) (c : Computer ε) (move : Move ε) :
    (move.make host c).machine.memory = c.machine.memory.withPut (move.put? host c) := by
  cases move with
  | load source => exact (c.memory_load source).trans (Memory.loaded_eq _ _ _)
  | step => exact memory_step host c
  | countDown => exact memory_countDown host c
  | outside | runState => rfl
  | read a source => exact Memory.loaded_eq _ _ _
  | write a data => exact Memory.written_eq _ _ _
  | set a b => rfl

end Move

/-! ## Histories of moves -/

/-- The computer that moves lead to; the latest move comes first. -/
def after (host : Host ε) (c : Computer ε) : List (Move ε) → Computer ε
  | [] => c
  | move :: earlier => move.make host (after host c earlier)

/-- What moves have put into memory, the latest first. -/
def puts (host : Host ε) (c : Computer ε) : List (Move ε) → List Put
  | [] => []
  | move :: earlier => (move.put? host (after host c earlier)).toList ++ puts host c earlier

/-- A byte is the one that was put at its place last. -/
theorem get_after (host : Host ε) (c : Computer ε) (moves : List (Move ε)) (a : UInt16) :
    (after host c moves).machine.memory.get a =
      ((puts host c moves).findSome? (·.byte? a)).getD (c.machine.memory.get a) := by
  induction moves with
  | nil => rfl
  | cons move earlier ih =>
    rw [after, puts, Move.memory_make, Memory.get_withPut, ih, List.findSome?_append]
    cases move.put? host (after host c earlier) with
    | none => rfl
    | some p =>
      rw [Option.bind_some, Option.toList_some, List.findSome?_singleton]
      cases p.byte? a <;> rfl

/-- Moves lead from `c` to `c'`, none of which writes to memory from outside. -/
def Leads (host : Host ε) (c c' : Computer ε) : Prop :=
  ∃ moves, (∀ move ∈ moves, ¬ move.Pokes) ∧ after host c moves = c'

theorem Leads.move {c₁ c₂ : Computer ε} (h : Leads host c c₁) (move : Move ε)
    (hpokes : ¬ move.Pokes) (hc : move.make host c₁ = c₂) : Leads host c c₂ := by
  obtain ⟨moves, hmoves, rfl⟩ := h
  exact ⟨move :: moves, List.forall_mem_cons.2 ⟨hpokes, hmoves⟩, hc⟩

/-- Histories are made of moves. -/
theorem History.leads (h : History host c log c') : Leads host c c' := by
  induction h with
  | start => exact ⟨[], nofun, rfl⟩
  | executed _ hx ih => exact ih.move .step id (congrArg Prod.snd hx.2)
  | idle _ hi ih =>
    cases hi with
    | failed h => exact ih.move .step id (congrArg Prod.snd h)
    | countDown => exact ih.move .countDown id rfl
    | load source => exact ih.move (.load source) id rfl
    | outside outside => exact ih.move (.outside outside) id rfl
    | runState s => exact ih.move (.runState s) id rfl

/-! ## Coherence -/

/-- Memory is what the puts have made of it. -/
structure Coherent (puts : List Put) (m : Machine) : Prop where
  byte : ∀ a, m.memory.get a = Put.recalled puts a
  /-- A word can be fetched from everywhere, also across the end of memory. -/
  word : ∀ pc : UInt16, ({ m with pc } : Machine).fetch.toNat =
    256 * (Put.recalled puts pc).toNat + (Put.recalled puts (pc + 1)).toNat
  /-- The font is there as long as nothing is put over it. -/
  font : (∀ p ∈ puts, ∀ k : Fin 80, ¬ p.Covers (UInt16.ofNat k)) →
    ∀ k : Fin 80, m.memory.get (UInt16.ofNat k) = Font.bytes[k]

theorem coherent_of_get {puts : List Put} {m : Machine}
    (h : ∀ a, m.memory.get a = Put.recalled puts a) : Coherent puts m where
  byte := h
  word pc := by
    rw [← h, ← h]
    exact m.memory.toNat_word pc
  font hfont k := by
    have hnone : puts.findSome? (·.byte? (UInt16.ofNat k)) = none :=
      List.findSome?_eq_none_iff.2 fun p hp ↦ Put.byte?_eq_none_iff.2 (hfont p hp k)
    rw [h, Put.recalled, hnone]
    exact Memory.unwritten_ofNat k

/-- Whatever is done to a machine that was fresh, its memory is coherent; and all that calls on it
lead to, moves lead to that do not write from outside. -/
theorem memory_coherent (host : Host ε) (options : Options) (entropy : UInt64) (outside : ε) :
    (∀ moves, Coherent (puts host ⟨.fresh options entropy, outside⟩ moves)
        (after host ⟨.fresh options entropy, outside⟩ moves).machine) ∧
      ∀ c, Reaches host ⟨.fresh options entropy, outside⟩ c →
        Leads host ⟨.fresh options entropy, outside⟩ c := by
  constructor
  · intro moves
    apply coherent_of_get
    intro a
    rw [get_after, Put.recalled, ← Memory.get_fresh_eq_unwritten]
    rfl
  · intro c h
    obtain ⟨_, hh⟩ := h.history (Machine.fresh_sound options entropy)
    exact hh.leads

/-- The program `6007 A300 F155`: seven and zero are stored at `0x300`. -/
def storing : Source := .ofBytes [0x60, 0x07, 0xA3, 0x00, 0xF1, 0x55]

/-- The program runs after a byte has been set at another address of the same place; then a write
fails at the end of memory. -/
def overSet : List (Move Bench) :=
  [.write 0xFFF [1, 2], .step, .step, .step, .set 0x1300 0xAB, .load storing]

/-- The byte that was stored is read at a third address, and the write has not reached the font. -/
theorem memory_coherent_overSet :
    (after Bench.host (onBench .null) overSet).machine.memory.get 0x5300 = 7 ∧
      (∀ k : Fin 80,
        (after Bench.host (onBench .null) overSet).machine.memory.get (UInt16.ofNat k) =
          Font.bytes[k]) ∧
      Leads Bench.host (onBench .null) ((onBench .null).load storing).2 := by
  have hcoherent : ∀ moves, Coherent (puts Bench.host (onBench .null) moves)
      (after Bench.host (onBench .null) moves).machine := (memory_coherent Bench.host {} 0 _).1
  have hreaches : Reaches Bench.host (onBench .null) ((onBench .null).load storing).2 :=
    .call (.load storing) .refl rfl
  refine ⟨?_, (hcoherent overSet).font (by decide +kernel), ?_⟩
  · rw [(hcoherent overSet).byte]
    decide +kernel
  · exact (memory_coherent Bench.host {} 0 _).2 _ hreaches

end Computer

end Chip8
