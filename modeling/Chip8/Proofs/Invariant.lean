import Chip8.Bench
import Chip8.Proofs.History
import Mathlib.Algebra.Group.Nat.Defs

/-! # The invariant of the stack

The stack pointer never leaves the stack and the lowest slot is never used. Every history keeps
this, and it is all that execution relies on: from a fresh machine on, no call ever faults. -/

namespace Chip8

/-- What holds of a machine whatever it has been through. -/
structure Machine.Sound (m : Machine) : Prop where
  sp_le : m.sp.toNat ≤ 15
  unused : m.stack[0] = 0

/-- What executing an instruction relies on: every index that it computes lies in its table, and
every sum, difference and product within its width. Registers, places in memory and the rows of a
sprite are counted by types that allow no others. -/
def Machine.InBounds (m : Machine) : Instruction → Prop
  | .ret => m.sp ≠ 0 → 1 ≤ m.sp.toNat ∧ m.sp.toNat < 16
  | .call _ => m.sp ≠ stackTop → m.sp.toNat + 1 < 2 ^ 8 ∧ m.sp.toNat + 1 < 16
  -- The buffer for a sprite has fifteen rows, and a pixel is wrapped at most once.
  | .draw x y rows => rows.val ≤ 15 ∧ ∀ k < rows.val, ∀ j : Fin 8,
      Grid.wrapOnce ((m.reg y).toNat % Grid.height + k) < Grid.height ∧
        (m.reg x).toNat % Grid.width + j.val < 2 * Grid.width
  | .fontChar x => Font.base.toNat + (m.reg x).toNat * Font.glyphSize.toNat < 2 ^ 16
  | _ => True

namespace Machine

variable {m m' : Machine}

theorem Sound.of_calls_eq (h : m.Sound) (he : m'.calls = m.calls) : m'.Sound := by
  obtain ⟨hstack, hsp⟩ := Prod.mk.inj he
  exact ⟨hsp ▸ h.sp_le, by simp only [hstack, h.unused]⟩

theorem fresh_sound (options : Options) (entropy : UInt64) : (fresh options entropy).Sound :=
  ⟨Nat.zero_le 15, by simp [fresh]⟩

theorem Sound.inBounds (h : m.Sound) (i : Instruction) : m.InBounds i := by
  have hsp := h.sp_le
  cases i with
  | ret =>
    intro h0
    have hpos : m.sp.toNat ≠ 0 := fun he ↦ h0 (UInt8.toNat_inj.1 he)
    exact ⟨by omega, by omega⟩
  | call addr =>
    intro htop
    have hne : m.sp.toNat ≠ 15 := fun he ↦ htop (UInt8.toNat_inj.1 he)
    exact ⟨by omega, by omega⟩
  | draw x y rows =>
    refine ⟨by omega, fun k hk j ↦ ⟨?_, ?_⟩⟩
    · simp only [Grid.wrapOnce, Grid.height]
      split <;> omega
    · simp only [Grid.width]
      omega
  | fontChar x =>
    have hx := (m.reg x).toNat_lt
    show 0 + (m.reg x).toNat * 5 < 2 ^ 16
    omega
  | _ => trivial

/-- Within its bounds an instruction does not fault. -/
theorem execute_ne_fault {i : Instruction} (h : m.InBounds i) : m.execute i ≠ .fault m' := by
  intro hf
  have heff := m.hasEffect_execute i
  rw [hf] at heff
  cases heff with
  | fault hi hlt =>
    obtain rfl | ⟨addr, rfl⟩ := hi
    · have hne : m.sp ≠ 0 := by
        intro hz
        simp [hz] at hlt
      have hlt' := (h hne).2
      omega
    · have hne : m.sp ≠ stackTop := by
        intro htop
        simp [htop, stackTop] at hlt
      have hlt' := (h hne).2
      omega

end Machine

/-- A frame has a zero or a one for each pixel. -/
theorem Grid.mem_frame {g : Grid} {b : UInt8} (h : b ∈ g.frame) : b = 0 ∨ b = 1 := by
  obtain ⟨lit, _, rfl⟩ := Array.mem_map.1 h
  cases lit
  · exact .inl rfl
  · exact .inr rfl

/-- Bytes that were written lie within memory. -/
theorem Machine.length_load {m m' : Machine} {source : Source} {n : Nat}
    (h : m.load source = .ok (n, m')) : n = 0 ∨ m.loadOffset.toNat + n ≤ Memory.size := by
  obtain ⟨memory, hm, rfl⟩ := Machine.load_eq_ok_iff.1 h
  obtain ⟨data, _, rfl, hw⟩ := Memory.load_eq_ok_iff.1 hm
  have hfit : data.length ≤ Memory.size - m.loadOffset.toNat := (Memory.write_eq_ok_iff.1 hw).1
  omega

namespace Computer

open Instruction

variable {ε : Type} {host : Host ε} {c c' : Computer ε} {log : List (Machine × Instruction)}

/-! ## What moves do to the calls -/

/-- A call takes the next slot, a return gives up the latest one, and any other instruction leaves
the calls alone. -/
theorem Executes.calls_cases {i : Instruction} (h : c.Executes host i c')
    (hs : c.machine.Sound) :
    (∃ addr, i = .call addr ∧ ∃ h : c.machine.sp.toNat + 1 < 16, c'.machine = { c.machine with
      sp := c.machine.sp + 1
      stack := c.machine.stack.set (c.machine.sp.toNat + 1) c.machine.pc h
      pc := addr }) ∨
    (i = .ret ∧ c.machine.sp ≠ 0 ∧ ∃ h : c.machine.sp.toNat < 16, c'.machine = { c.machine with
      pc := c.machine.stack[c.machine.sp.toNat] + 2
      sp := c.machine.sp - 1 }) ∨
    ((i ≠ .ret ∧ ∀ addr, i ≠ .call addr) ∧ c'.machine.calls = c.machine.calls) := by
  obtain ⟨hi, hstep⟩ := h
  by_cases hr : i = .ret
  · subst hr
    refine .inr (.inl ⟨rfl, ?_⟩)
    by_cases h0 : c.machine.sp = 0
    · cases hstep.symm.trans (step_ret_empty hi h0)
    · have hlt : c.machine.sp.toNat < 16 := Nat.lt_succ_of_le hs.sp_le
      cases hstep.symm.trans (step_ret hi h0 hlt)
      exact ⟨h0, hlt, rfl⟩
  by_cases hc : ∃ addr, i = .call addr
  · obtain ⟨addr, rfl⟩ := hc
    refine .inl ⟨addr, rfl, ?_⟩
    by_cases htop : c.machine.sp = Machine.stackTop
    · cases hstep.symm.trans (step_call_full hi htop)
    · have hlt := (hs.inBounds (.call addr) htop).2
      cases hstep.symm.trans (step_call hi hlt)
      exact ⟨hlt, rfl⟩
  · have hother : i ≠ .ret ∧ ∀ addr, i ≠ .call addr := ⟨hr, fun addr he ↦ hc ⟨addr, he⟩⟩
    have hl : (c.step host).2.machine.calls = c.machine.calls := by
      rw [step_of_decode hi]
      exact perform_leaves (c.machine.calls_execute hother.1 hother.2) rfl
    rw [hstep] at hl
    exact .inr (.inr ⟨hother, hl⟩)

/-- What can happen to the machine while no instruction is executed. -/
theorem Idle.machine_cases (h : c.Idle host c') :
    c'.machine = c.machine ∨
    (∃ x y rows, c.machine.draw x y rows = .drawn c'.machine) ∨
    c'.machine = c.machine.decayTimers ∨
    (∃ memory, c'.machine = { c.machine with memory }) ∨
    ∃ runState, c'.machine = { c.machine with runState } := by
  cases h with
  | failed h =>
    cases step_failure h with
    | unknown | overflow | underflow | keypad => exact .inl rfl
    | @display x y rows _ _ _ _ hd => exact .inr (.inl ⟨x, y, rows, hd⟩)
  | countDown =>
    obtain ⟨_, hd⟩ | ⟨_, _, _, hd⟩ | ⟨_, _, _, _, hd⟩ := countDown_cases host c
    · exact .inr (.inr (.inl (by rw [hd])))
    · exact .inr (.inr (.inl (by rw [hd])))
    · exact .inl (by rw [hd])
  | load source =>
    rcases hl : c.machine.load source with e | ⟨n, machine⟩
    · exact .inl (by rw [Computer.load, hl])
    · obtain ⟨memory, _, rfl⟩ := Machine.load_eq_ok_iff.1 hl
      exact .inr (.inr (.inr (.inl ⟨memory, by rw [Computer.load, hl]⟩)))
  | outside => exact .inl rfl
  | runState s => exact .inr (.inr (.inr (.inr ⟨s, rfl⟩)))

theorem Idle.calls_eq (h : c.Idle host c') : c'.machine.calls = c.machine.calls := by
  obtain he | ⟨x, y, rows, hd⟩ | he | ⟨_, he⟩ | ⟨_, he⟩ := h.machine_cases
  · rw [he]
  · have hl := c.machine.calls_execute (i := .draw x y rows) nofun nofun
    rw [Machine.execute, hd] at hl
    exact hl
  all_goals
    rw [he]
    rfl

/-! ## The invariant -/

theorem Executes.sound {i : Instruction} (h : c.Executes host i c') (hs : c.machine.Sound) :
    c'.machine.Sound := by
  have hsp := hs.sp_le
  obtain ⟨addr, _, hlt, he⟩ | ⟨_, h0, _, he⟩ | ⟨_, he⟩ := h.calls_cases hs
  · have hne : c.machine.sp ≠ 255 := by
      intro hmax
      simp [hmax] at hlt
    rw [he]
    constructor
    · show (c.machine.sp + 1).toNat ≤ 15
      rw [Machine.toNat_add_one hne]
      omega
    · simpa using hs.unused
  · rw [he]
    constructor
    · show (c.machine.sp - 1).toNat ≤ 15
      rw [Machine.toNat_sub_one h0]
      omega
    · exact hs.unused
  · exact hs.of_calls_eq he

theorem History.sound (h : History host c log c') (hs : c.machine.Sound) : c'.machine.Sound :=
  h.keeps (fun hx ↦ hx.sound) (fun hi hs ↦ hs.of_calls_eq hi.calls_eq) hs

/-! ## Calls do not fault -/

theorem step_ne_fault (hs : c.machine.Sound) : (c.step host).1 ≠ .error .fault := by
  intro hf
  cases hd : decode c.machine.fetch with
  | error e =>
    rw [step_of_unknown hd] at hf
    cases hf
  | ok i =>
    rw [step_of_decode hd] at hf
    cases heff : c.machine.execute i with
    | fault m => exact Machine.execute_ne_fault (hs.inBounds i) heff
    | done | refused =>
      rw [heff] at hf
      cases hf
    | drawn | asking =>
      rw [heff, perform] at hf
      split at hf <;> cases hf

theorem cycle_ne_fault (hs : c.machine.Sound) : (c.cycle host).1 ≠ .error .fault := by
  intro hf
  obtain ⟨halt, c₁, hstep, hc⟩ | ⟨_, _, _, _, _, _, hc⟩ | ⟨_, _, _, _, hc⟩ := cycle_cases host c
  · have hne : (c.step host).1 ≠ .error .fault := step_ne_fault hs
    rw [hstep] at hne
    rw [hc] at hf
    cases hf
    exact hne rfl
  · rw [hc] at hf
    cases hf
  · rw [hc] at hf
    cases hf

theorem loop_ne_fault {pace : Pace ε} {limit : Nat} {result : Except Halt Unit}
    (hs : c.machine.Sound) (h : c.loop host pace limit = some (result, c')) :
    result ≠ .error .fault := by
  induction limit generalizing c with
  | zero => cases h
  | succ limit ih =>
    have hne : ((c.ticked pace).cycle host).1 ≠ .error .fault := cycle_ne_fault hs
    rw [loop] at h
    obtain ⟨_, ht⟩ | ⟨_, word, c₁, hc, ht⟩ | ⟨_, halt, c₁, hc, ht⟩ := turn_cases host pace c
    · rw [ht] at h
      cases h
      intro hf
      cases hf
    · rw [ht] at h
      have hok : Except.ok word ≠ Except.error Halt.fault := by
        intro hf
        cases hf
      obtain ⟨_, hh⟩ := cycled_history hc hok
      exact ih (hh.sound hs) h
    · rw [ht] at h
      cases h
      rw [hc] at hne
      exact reported_ne_fault fun hf ↦ hne (by rw [hf])

theorem make_ne_fault {call : Call ε} {result : Except Halt Unit} (hs : c.machine.Sound)
    (h : call.make host c = some (result, c')) : result ≠ .error .fault := by
  cases call with
  | load source =>
    cases h
    cases (c.load source).1 <;> nofun
  | step =>
    have hne : (c.step host).1 ≠ .error .fault := step_ne_fault hs
    rw [Option.some.inj h] at hne
    exact hne
  | cycle =>
    have hne : (c.cycle host).1 ≠ .error .fault := cycle_ne_fault hs
    cases h
    intro hf
    rcases hr : (c.cycle host).1 with halt | word
    · rw [hr] at hf hne
      exact hne (by cases hf; rfl)
    · rw [hr] at hf
      cases hf
  | run pace limit =>
    obtain ⟨⟨result, c₁⟩, hl, he⟩ := Option.map_eq_some_iff.1 h
    cases he
    exact loop_ne_fault (c := c.setRunState .running) (hs.of_calls_eq rfl) hl

theorem Reaches.history (h : Reaches host c c') (hs : c.machine.Sound) :
    ∃ log, History host c log c' := by
  induction h with
  | refl => exact ⟨[], .start⟩
  | call call _ hm ih =>
    obtain ⟨_, hh⟩ := ih
    obtain ⟨_, hh'⟩ := make_history hm (make_ne_fault (hh.sound hs) hm)
    exact ⟨_, hh.trans hh'⟩
  | outside outside _ ih =>
    obtain ⟨log, hh⟩ := ih
    exact ⟨log, hh.idle (.outside outside)⟩

/-! ## Safety -/

/-- What holds of a computer, and of all that can be done with it next. -/
structure Safe (host : Host ε) (c : Computer ε) : Prop where
  sp_le : c.machine.sp.toNat ≤ 15
  unused : c.machine.stack[0] = 0
  pixels : ∀ b ∈ c.machine.grid.frame, b = 0 ∨ b = 1
  size : c.machine.memory.bytes.toList.length = 4096
  /-- A run does not fault either, however long it is looked at. -/
  no_fault : ∀ (call : Call ε) (result : Except Halt Unit) (c' : Computer ε),
    call.make host c = some (result, c') → result ≠ .error .fault
  /-- This holds in the middle of runs, too. -/
  inBounds : ∀ (log : List (Machine × Instruction)) (c' : Computer ε), History host c log c' →
    ∀ i, decode c'.machine.fetch = .ok i → c'.machine.InBounds i
  /-- Bytes that are loaded are put into a part of memory that is there. -/
  fits : ∀ (source : Source) (n : Nat) (m : Machine), c.machine.load source = .ok (n, m) →
    n = 0 ∨ c.machine.loadOffset.toNat + n ≤ Memory.size

theorem safe_of_sound (hs : c.machine.Sound) : c.Safe host where
  sp_le := hs.sp_le
  unused := hs.unused
  pixels _ := Grid.mem_frame
  size := by simp
  no_fault _ _ _ := make_ne_fault hs
  inBounds _ _ h i _ := (h.sound hs).inBounds i
  fits _ _ _ := Machine.length_load

/-- Calls on a fresh machine lead to safe computers only, whatever the devices do. -/
theorem reaches_safe (host : Host ε) (options : Options) (entropy : UInt64) (outside : ε)
    (h : Reaches host ⟨.fresh options entropy, outside⟩ c) : c.Safe host := by
  have hfresh := Machine.fresh_sound options entropy
  obtain ⟨_, hh⟩ := h.history hfresh
  exact safe_of_sound (hh.sound hfresh)

/-- The program `F00A F029` with a key byte that has no glyph. -/
def beyondFont : Computer Bench :=
  (((onBench (.replies [.ok 0xFF])).load
    (.ofBytes [0xF0, 0x0A, 0xF0, 0x29])).2.cycle Bench.host).2.cycle Bench.host |>.2

/-- The address of the glyph lies beyond the font, and nothing overflows. -/
theorem reaches_safe_beyondFont :
    Reaches Bench.host (onBench (.replies [.ok 0xFF])) beyondFont ∧
      beyondFont.machine.i = 255 * 5 ∧ beyondFont.Safe Bench.host := by
  have h : Reaches Bench.host (onBench (.replies [.ok 0xFF])) beyondFont :=
    .call .cycle
      (.call .cycle (.call (.load (.ofBytes [0xF0, 0x0A, 0xF0, 0x29])) .refl rfl) rfl) rfl
  exact ⟨h, by decide +kernel, reaches_safe Bench.host {} 0 _ h⟩

end Computer

end Chip8
