import Chip8.Proofs.Footprint
import Chip8.Proofs.Invariant
import Mathlib.Logic.Function.Iterate

/-! # The draws of a seed

A seed fixes an endless sequence of draws, and a machine takes one of them with each random
instruction that it executes and none with anything else. So how many have been executed tells where
the stream of a machine stands, whatever else it has done. -/

namespace Chip8

namespace RandomStream

open Keystream (word)

/-! ## Words and draws -/

/-- One word gives no draw. -/
theorem draw?_eq_none_iff {w : UInt32} : draw? w = none ↔ w = 0x01010101 := by
  have hw := w.toNat_lt
  rw [draw?, ← UInt32.toNat_inj]
  simp only [UInt32.size]
  split
  · next h =>
    simp only [true_iff]
    show w.toNat = 16843009
    omega
  · next h =>
    simp only [reduceCtorEq, false_iff]
    intro he
    have hval : w.toNat = 16843009 := he
    omega

/-- The keystream repeats when the numbers of its blocks do. -/
theorem word_add_period (key : Keystream.Key) (p : Nat) : word key (p + period) = word key p := by
  have hnumber : UInt64.ofNat ((p + period) / 16) = UInt64.ofNat (p / 16) := by
    have hzero : UInt64.ofNat UInt64.size = 0 := by decide
    rw [period, Nat.add_mul_div_left _ _ (by decide), UInt64.ofNat_add, hzero, UInt64.add_zero]
  have hplace : Fin.ofNat 16 (p + period) = Fin.ofNat 16 p := by
    rw [Fin.ofNat, Fin.ofNat, Fin.mk.injEq, period, Nat.add_mul_mod_self_left]
  rw [word, hnumber, hplace]
  rfl

theorem word_add_mul_period (key : Keystream.Key) (p n : Nat) :
    word key (p + n * period) = word key p := by
  induction n with
  | zero => rw [Nat.zero_mul, Nat.add_zero]
  | succ n ih => rw [Nat.succ_mul, ← Nat.add_assoc, word_add_period, ih]

/-- The draws that the first `n` words of the keystream give, in order. -/
def draws (key : Keystream.Key) (n : Nat) : List UInt8 :=
  (List.range n).filterMap fun p ↦ draw? (word key p)

/-- Draw number `k` of the keystream is `r`, counted from zero. -/
def IsDraw (key : Keystream.Key) (k : Nat) (r : UInt8) : Prop := ∃ n, (draws key n)[k]? = some r

/-- Some word of the keystream gives a draw, so that no search for one is endless. -/
def Gives (key : Keystream.Key) : Prop := ∃ p r, draw? (word key p) = some r

theorem draws_succ (key : Keystream.Key) (n : Nat) :
    draws key (n + 1) = draws key n ++ (draw? (word key n)).toList := by
  rw [draws, List.range_succ, List.filterMap_append]
  cases h : draw? (word key n) <;> simp [draws, h]

theorem draws_mono (key : Keystream.Key) {m n : Nat} (h : m ≤ n) : draws key m <+: draws key n := by
  obtain ⟨d, rfl⟩ := Nat.exists_eq_add_of_le h
  induction d with
  | zero => exact List.prefix_rfl
  | succ d ih =>
    rw [← Nat.add_assoc, draws_succ]
    exact (ih (Nat.le_add_right _ _)).trans (List.prefix_append _ _)

/-- A keystream has one draw of each number at most. -/
theorem IsDraw.unique {key : Keystream.Key} {k : Nat} {r r' : UInt8} (h : IsDraw key k r)
    (h' : IsDraw key k r') : r = r' := by
  obtain ⟨n, hn⟩ := h
  obtain ⟨n', hn'⟩ := h'
  have hlater : ∀ {m : Nat} {r : UInt8}, m ≤ max n n' → (draws key m)[k]? = some r →
      (draws key (max n n'))[k]? = some r := by
    intro m r hle hm
    obtain ⟨hlt, rfl⟩ := List.getElem?_eq_some_iff.1 hm
    exact List.prefix_iff_getElem?.1 (draws_mono key hle) k hlt
  have heq := (hlater (Nat.le_max_left n n') hn).symm.trans (hlater (Nat.le_max_right n n') hn')
  exact Option.some.inj heq

/-! ## The search for a draw -/

theorem search_le (key : Keystream.Key) (limit position : Nat) :
    (search key limit position).1.toNat ≤ 254 := by
  induction limit generalizing position with
  | zero => exact Nat.zero_le 254
  | succ limit ih =>
    rw [search]
    split
    · next h => exact draw?_le h
    · exact ih (position + 1)

/-- A search that comes upon a draw answers the first one, and stops behind its word. -/
theorem draws_search {key : Keystream.Key} {limit position p : Nat} {r : UInt8}
    (hle : position ≤ p) (hlt : p < position + limit) (hp : draw? (word key p) = some r) :
    draws key (search key limit position).2 =
      draws key position ++ [(search key limit position).1] := by
  induction limit generalizing position with
  | zero => omega
  | succ limit ih =>
    rw [search]
    split
    · next h => rw [draws_succ, h, Option.toList_some]
    · next h =>
      have hne : position ≠ p := fun he ↦ by
        rw [he, hp] at h
        cases h
      rw [ih (by omega) (by omega), draws_succ, h, Option.toList_none, List.append_nil]

/-- Wherever a search begins, a draw that the keystream gives at all comes within one period. -/
theorem Gives.within_period {key : Keystream.Key} (h : Gives key) (position : Nat) :
    ∃ p r, position ≤ p ∧ p < position + period ∧ draw? (word key p) = some r := by
  obtain ⟨p, r, hp⟩ := h
  have hpos : 0 < period := by decide
  -- A later word that repeats the one at `p`, and how far it lies behind `position`.
  have hlater : position ≤ p + position * period :=
    Nat.le_trans (Nat.le_mul_of_pos_right _ hpos) (Nat.le_add_left _ _)
  obtain ⟨d, hd⟩ := Nat.exists_eq_add_of_le hlater
  refine ⟨position + d % period, r, Nat.le_add_right _ _, ?_, ?_⟩
  · exact Nat.add_lt_add_left (Nat.mod_lt _ hpos) _
  · have hsum : position + d % period + d / period * period = p + position * period := by
      rw [hd, Nat.add_assoc, Nat.mod_add_div']
    rw [← word_add_mul_period key _ (d / period), hsum, word_add_mul_period, hp]

/-- The next draw is the one behind those of the words before the stream's position. -/
theorem draws_next {s : RandomStream} (h : Gives s.key) :
    draws s.key s.next.2.position = draws s.key s.position ++ [s.next.1] := by
  obtain ⟨p, r, hle, hlt, hp⟩ := h.within_period s.position
  exact draws_search hle hlt hp

theorem next_le (s : RandomStream) : s.next.1.toNat ≤ 254 := search_le s.key period s.position

/-! ## The draws of a seed -/

/-- The stream of a seed behind its first `k` draws. -/
def behind (seed : UInt64) (k : Nat) : RandomStream := (fun s ↦ s.next.2)^[k] (ofSeed seed)

/-- Draw number `k` of a seed, counted from zero. -/
def draw (seed : UInt64) (k : Nat) : UInt8 := (behind seed k).next.1

theorem behind_succ (seed : UInt64) (k : Nat) : behind seed (k + 1) = (behind seed k).next.2 :=
  Function.iterate_succ_apply' _ k _

theorem key_behind (seed : UInt64) (k : Nat) : (behind seed k).key = keyOfSeed seed := by
  induction k with
  | zero => rfl
  | succ k ih => rw [behind_succ, key_next, ih]

theorem draws_behind {seed : UInt64} (h : Gives (keyOfSeed seed)) (k : Nat) :
    draws (keyOfSeed seed) (behind seed k).position = (List.range k).map (draw seed) := by
  induction k with
  | zero => rfl
  | succ k ih =>
    have hnext := draws_next (s := behind seed k) (by rwa [key_behind])
    rw [key_behind, ih] at hnext
    rw [behind_succ, hnext, List.range_succ, List.map_append, List.map_singleton]
    rfl

/-- The draws of a seed are those of its keystream, word after word. Only a keystream of nothing but
the one word that gives no draw would have none. -/
theorem isDraw_draw (seed : UInt64) :
    (∀ k r, IsDraw (keyOfSeed seed) k r ↔ r = draw seed k) ∨
      ∀ p, word (keyOfSeed seed) p = 0x01010101 := by
  by_cases h : Gives (keyOfSeed seed)
  · refine .inl fun k r ↦ ?_
    have hk : IsDraw (keyOfSeed seed) k (draw seed k) := by
      refine ⟨(behind seed (k + 1)).position, ?_⟩
      rw [draws_behind h, List.getElem?_map, List.getElem?_range (Nat.lt_succ_self k)]
      rfl
    constructor
    · intro hr
      exact hr.unique hk
    · rintro rfl
      exact hk
  · refine .inr fun p ↦ draw?_eq_none_iff.1 ?_
    cases hp : draw? (word (keyOfSeed seed) p) with
    | none => rfl
    | some r => exact absurd ⟨p, r, hp⟩ h

end RandomStream

namespace Instruction

/-- The instructions that take a draw. -/
def takesDraw : Instruction → Bool
  | .random .. => true
  | _ => false

end Instruction

/-- How many of the instructions of a log have taken a draw. -/
def drawCount (log : List (Machine × Instruction)) : Nat := log.countP fun entry ↦ entry.2.takesDraw

namespace Computer

open Instruction RandomStream

variable {ε : Type} {host : Host ε} {c c' : Computer ε} {log : List (Machine × Instruction)}

/-! ## What takes a draw -/

/-- An instruction that takes a draw adds it to its number, and nobody is asked. -/
theorem step_random {x : Register} {nn : UInt8} (hi : decode c.machine.fetch = .ok (.random x nn)) :
    c.step host = (.ok (), { c with machine := c.machine.randomize x nn }) := by
  rw [step_of_decode hi]
  rfl

theorem Executes.random_eq {i : Instruction} (h : c.Executes host i c') (hi : i.takesDraw = false) :
    c'.machine.random = c.machine.random := by
  obtain ⟨hd, hstep⟩ := h
  rw [step_of_decode hd] at hstep
  have hfoot := (Machine.writes_of_finish? (finish?_of_perform hstep)).footprint
  by_contra hne
  obtain ⟨x, nn, rfl⟩ := hfoot.random hne
  cases hi

theorem Idle.random_eq (h : c.Idle host c') : c'.machine.random = c.machine.random := by
  obtain he | ⟨x, y, rows, hd⟩ | he | ⟨_, he⟩ | ⟨_, he⟩ := h.machine_cases
  · rw [he]
  · have hfinish : (c.machine.execute (.draw x y rows)).finish? none = some c'.machine := by
      rw [Machine.execute, hd]
      rfl
    by_contra hne
    obtain ⟨_, _, he⟩ := (Machine.writes_of_finish? hfinish).footprint.random hne
    cases he
  · rw [he, Machine.decayTimers]
  · rw [he]
  · rw [he]

/-! ## The stream along a history -/

/-- From a seed on, the stream stands behind as many draws as have been taken. -/
theorem History.random_eq {seed : UInt64} (h : History host c log c')
    (h0 : c.machine.random = ofSeed seed) : c'.machine.random = behind seed (drawCount log) := by
  induction h with
  | start => exact h0
  | @executed log i c₁ c₂ _ hx ih =>
    cases hi : i.takesDraw with
    | false =>
      have hcount : drawCount ((c₁.machine, i) :: log) = drawCount log :=
        List.countP_cons_of_neg (by rw [hi]; decide)
      rw [hx.random_eq hi, ih, hcount]
    | true =>
      have hcount : drawCount ((c₁.machine, i) :: log) = drawCount log + 1 :=
        List.countP_cons_of_pos hi
      obtain ⟨hd, hstep⟩ := hx
      cases i with
      | random x nn =>
        cases hstep.symm.trans (step_random hd)
        rw [hcount, behind_succ, ← ih]
        rfl
      | _ => cases hi
  | idle _ hi ih => rw [hi.random_eq, ih]

/-- How a computer with this log behind it takes the draws of a seed. -/
structure FollowsSeed (host : Host ε) (seed : UInt64) (log : List (Machine × Instruction))
    (c : Computer ε) : Prop where
  /-- The stream stands behind the draws that the log has taken. -/
  random : c.machine.random = behind seed (drawCount log)
  /-- A random instruction succeeds and adds the next draw, so that the sum before its number never
  comes out. -/
  draw : ∀ x nn, decode c.machine.fetch = .ok (.random x nn) →
    (c.step host).1 = .ok () ∧
      (c.step host).2.machine.reg x = nn + RandomStream.draw seed (drawCount log) ∧
      (c.step host).2.machine.reg x ≠ nn - 1
  /-- Whatever else is executed or happens leaves the stream alone. -/
  kept : ∀ c', (∃ i, c.Executes host i c' ∧ i.takesDraw = false) ∨ c.Idle host c' →
    c'.machine.random = c.machine.random
  /-- Any other machine of the seed is given the same draws, whatever else it has executed. -/
  same : ∀ {δ : Type} (other : Host δ) (options : Options) entropy outside log' d,
    History other ⟨.fresh { options with seed := some seed } entropy, outside⟩ log' d →
    drawCount log' = drawCount log → d.machine.random = c.machine.random

theorem add_draw_ne (nn : UInt8) (seed : UInt64) (k : Nat) :
    nn + RandomStream.draw seed k ≠ nn - 1 := by
  intro he
  have hle : (RandomStream.draw seed k).toNat ≤ 254 := next_le _
  rw [← UInt8.toNat_inj, UInt8.toNat_add, UInt8.toNat_sub, UInt8.toNat_one] at he
  have hlt := nn.toNat_lt
  omega

theorem History.followsSeed {seed : UInt64} (h : History host c log c')
    (h0 : c.machine.random = ofSeed seed) : c'.FollowsSeed host seed log where
  random := h.random_eq h0
  draw x nn hi := by
    have hreg : (c'.step host).2.machine.reg x = nn + RandomStream.draw seed (drawCount log) := by
      rw [step_random hi, RandomStream.draw, ← h.random_eq h0]
      exact (Machine.reg_assign _ x x _).trans (if_pos rfl)
    refine ⟨by rw [step_random hi], hreg, ?_⟩
    rw [hreg]
    exact add_draw_ne nn seed _
  kept c' hc := by
    obtain ⟨i, hx, hi⟩ | hi := hc
    · exact hx.random_eq hi
    · exact hi.random_eq
  same other options entropy outside log' d hd hcount := by
    have hother : d.machine.random = behind seed (drawCount log') := hd.random_eq rfl
    rw [hother, h.random_eq h0, hcount]

/-- However a machine that was fresh is run, its random instructions are given the draws of its
seed, one after the other, and nothing else takes any. The draws are those of the seed's keystream,
unless that were the one word alone that gives none; and all that calls lead to, they lead to along
histories. -/
theorem fresh_followsSeed (host : Host ε) (options : Options) (seed entropy : UInt64)
    (outside : ε) :
    (∀ log c, History host ⟨.fresh { options with seed := some seed } entropy, outside⟩ log c →
      c.FollowsSeed host seed log) ∧
    (∀ c, Reaches host ⟨.fresh { options with seed := some seed } entropy, outside⟩ c →
      ∃ log, History host ⟨.fresh { options with seed := some seed } entropy, outside⟩ log c) ∧
    (∀ k, (RandomStream.draw seed k).toNat ≤ 254) ∧
    ((∀ k r, IsDraw (keyOfSeed seed) k r ↔ r = RandomStream.draw seed k) ∨
      ∀ p, Keystream.word (keyOfSeed seed) p = 0x01010101) := by
  refine ⟨?_, ?_, ?_, isDraw_draw seed⟩
  · intro log c h
    exact h.followsSeed rfl
  · intro c h
    exact h.history (Machine.fresh_sound _ entropy)
  · intro k
    exact next_le _

/-- A program before a machine with seed seven. -/
def seeded (program : List UInt8) : Computer Bench :=
  let c : Computer Bench := ⟨.fresh { seed := some 7 } 0, .ofDevices .null .null (.mute 0)⟩
  (c.load (.ofBytes program)).2

/-- The program `C000 C1FF` behind its first instruction. -/
def drawnOnce : Computer Bench := ((seeded [0xC0, 0x00, 0xC1, 0xFF]).step Bench.host).2

/-- The program `6005 C500` behind its second instruction. -/
def drawnElsewhere : Computer Bench :=
  (((seeded [0x60, 0x05, 0xC5, 0x00]).step Bench.host).2.step Bench.host).2

/-- The second draw is seven, and the other program will be given it as well. -/
theorem fresh_followsSeed_drawnOnce :
    (drawnOnce.step Bench.host).2.machine.reg 1 = 6 ∧
      drawnElsewhere.machine.random = drawnOnce.machine.random := by
  have hi : decode (seeded [0xC0, 0x00, 0xC1, 0xFF]).machine.fetch = .ok (.random 0 0) :=
    decode_eq_ok_iff.2 (by decide +kernel)
  have hi₁ : decode drawnOnce.machine.fetch = .ok (.random 1 0xFF) :=
    decode_eq_ok_iff.2 (by decide +kernel)
  have hs : decode (seeded [0x60, 0x05, 0xC5, 0x00]).machine.fetch = .ok (.setImm 0 5) :=
    decode_eq_ok_iff.2 (by decide +kernel)
  have hs₁ : decode ((seeded [0x60, 0x05, 0xC5, 0x00]).step Bench.host).2.machine.fetch =
      .ok (.random 5 0) := decode_eq_ok_iff.2 (by decide +kernel)
  have h : History Bench.host ⟨.fresh { seed := some 7 } 0, .ofDevices .null .null (.mute 0)⟩
      [((seeded [0xC0, 0x00, 0xC1, 0xFF]).machine, .random 0 0)] drawnOnce :=
    .executed (.idle .start (.load _)) (executes_of_step hi (by rw [step_random hi]))
  have h' : History Bench.host ⟨.fresh { seed := some 7 } 0, .ofDevices .null .null (.mute 0)⟩
      [(((seeded [0x60, 0x05, 0xC5, 0x00]).step Bench.host).2.machine, .random 5 0),
        ((seeded [0x60, 0x05, 0xC5, 0x00]).machine, .setImm 0 5)] drawnElsewhere := by
    refine .executed (.executed (.idle .start (.load _)) ?_) ?_
    · exact executes_of_step hs (by rw [step_of_decode hs]; rfl)
    · exact executes_of_step hs₁ (by rw [step_random hs₁])
  have hf := (fresh_followsSeed Bench.host {} 7 0 (.ofDevices .null .null (.mute 0))).1 _ _ h
  obtain ⟨_, hreg, _⟩ := hf.draw 1 0xFF hi₁
  refine ⟨?_, hf.same Bench.host {} 0 _ _ _ h' (by simp [drawCount, takesDraw])⟩
  rw [hreg]
  decide +kernel

end Computer

end Chip8
