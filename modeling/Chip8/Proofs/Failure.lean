import Chip8.Bench
import Chip8.Proofs.Step

/-! # What failures leave behind

A step that fails leaves the machine as it was, unless it had already drawn: then only the display
has not taken the frame. A cycle that fails leaves the timers alone. -/

namespace Chip8.Computer

open Instruction

variable {ε : Type} {host : Host ε} {c c' : Computer ε}

/-- The machine after a sprite has been drawn, whether or not the display takes the frame. -/
def HasDrawn (m : Machine) (x y : Register) (rows : Fin 16) (m' : Machine) : Prop :=
  ∃ grid collision,
    m.grid.drawSprite (m.memory.getBlock m.i rows) (m.reg x) (m.reg y) = (grid, some collision) ∧
    m' = ({ m with grid }.setReg Machine.flagRegister collision.toUInt8).advance

/-- What a step leaves that fails with an error. -/
def LeftByStep (host : Host ε) (c c' : Computer ε) (e : Error) : Prop :=
  match e with
  /- No device has been asked, so it would be the same with any others, and nothing has changed. -/
  | .unknownOpcode _ | .stackOverflow _ | .stackUnderflow _ =>
    c' = c ∧ ∀ others : Host ε, c.step others = (.error (.error e), c)
  /- The keypad has been asked once. -/
  | .quit | .keypad _ => c' = { c with outside := (host.key c.outside).2 }
  /- The drawing is done, just as with a display that takes the frame. -/
  | .display _ => c'.outside = (host.draw c'.machine.grid c.outside).2 ∧ ∃ x y rows,
      decode c.machine.fetch = .ok (.draw x y rows) ∧ HasDrawn c.machine x y rows c'.machine ∧
      ∀ willing : Host ε, (willing.draw c'.machine.grid c.outside).1 = .ok () →
        (c.step willing).1 = .ok () ∧ (c.step willing).2.machine = c'.machine
  /- No step fails like this. -/
  | .sound _ | .load _ | .loadOverflow .. => False

theorem Failure.leftByStep {e : Error} (h : Failure host c e c') : LeftByStep host c c' e := by
  cases h with
  | unknown hd =>
    obtain ⟨_, rfl⟩ := decode_eq_error_iff.1 hd
    exact ⟨rfl, fun _ ↦ step_of_unknown hd⟩
  | overflow hi htop => exact ⟨rfl, fun _ ↦ step_call_full hi htop⟩
  | underflow hi h0 => exact ⟨rfl, fun _ ↦ step_ret_empty hi h0⟩
  | @keypad _ _ k outside _ _ hk hne =>
    have hasked : ({ c with outside } : Computer ε) =
        { c with outside := (host.key c.outside).2 } := by
      rw [hk]
    cases k with
    | noKey => exact absurd rfl hne
    | quit | unavailable | device => exact hasked
  | @display x y rows m d outside hi hd hdraw =>
    obtain ⟨grid, collision, hg, hm⟩ := c.machine.draw_cases x y rows
    have hdrawn := Effect.drawn.inj (hd.symm.trans hm)
    refine ⟨by rw [hdraw], x, y, rows, hi, ⟨grid, collision, hg, hdrawn⟩, ?_⟩
    intro willing hw
    have hstep : c.step willing = (.ok (), ⟨m, (willing.draw m.grid c.outside).2⟩) := by
      rw [step_of_decode hi, Machine.execute, hd, perform]
      split
      · next ho => rw [ho]
      · next ho =>
        rw [ho] at hw
        cases hw
    rw [hstep]
    exact ⟨rfl, rfl⟩

/-- A step makes no use of the cue. -/
theorem step_cue (host : Host ε) (cue : ε → Except DeviceError Unit × ε) (c : Computer ε) :
    c.step { host with cue } = c.step host := by
  unfold step
  split
  · rfl
  · unfold perform
    split <;> rfl

/-- A step that fails has not reached the timers. -/
theorem Failure.timers_eq {e : Error} (h : Failure host c e c') :
    c'.machine.delay = c.machine.delay ∧ c'.machine.sound = c.machine.sound := by
  cases h with
  | unknown | overflow | underflow | keypad => exact ⟨rfl, rfl⟩
  | @display x y rows m d outside hi hd hdraw =>
    obtain ⟨grid, collision, hg, hm⟩ := c.machine.draw_cases x y rows
    obtain rfl := Effect.drawn.inj (hd.symm.trans hm)
    exact ⟨rfl, rfl⟩

/-- What a cycle leaves that fails with an error: what its step left, which either failed itself, so
that no cue was sounded, or was followed by a cue that failed. -/
def LeftByCycle (host : Host ε) (c c' : Computer ε) (e : Error) : Prop :=
  (c.step host = (.error (.error e), c') ∧ c'.machine.delay = c.machine.delay ∧
    c'.machine.sound = c.machine.sound ∧
    ∀ cue, c.cycle { host with cue } = (.error (.error e), c')) ∨
  ∃ d c₁, e = .sound d ∧ c.step host = (.ok (), c₁) ∧ c₁.machine.sound = 1 ∧
    c'.machine = c₁.machine ∧ host.cue c₁.outside = (.error d, c'.outside)

/-- Failing steps and cycles leave no half-done work behind. -/
theorem failures_leave (host : Host ε) (c : Computer ε) :
    (∀ e c', c.step host = (.error (.error e), c') → LeftByStep host c c' e) ∧
      ∀ e c', c.cycle host = (.error (.error e), c') → LeftByCycle host c c' e := by
  constructor
  · intro e c' h
    exact (step_failure h).leftByStep
  · intro e c' h
    obtain ⟨halt, c₁, hs, hc⟩ | ⟨c₁, d, outside, hs, hone, hq, hc⟩ | ⟨_, _, _, _, hc⟩ :=
      cycle_cases host c
    · cases h.symm.trans hc
      obtain ⟨hdelay, hsound⟩ := (step_failure hs).timers_eq
      refine .inl ⟨hs, hdelay, hsound, ?_⟩
      intro cue
      rw [cycle, step_cue, hs]
    · cases h.symm.trans hc
      exact .inr ⟨d, c₁, rfl, hs, hone, rfl, hq⟩
    · cases h.symm.trans hc

/-- The program `D011` before a display that takes nothing. -/
def unshown : Computer Bench :=
  let c : Computer Bench :=
    ⟨.fresh {} 0, .ofDevices (.recorder (.ofFailFrom (some 1))) .null (.mute 0)⟩
  (c.load (.ofBytes [0xD0, 0x11])).2

/-- The step fails with the display, and the sprite is drawn. -/
theorem failures_leave_unshown : ∃ c', unshown.step Bench.host =
    (.error (.error (.display ⟨"display gone"⟩)), c') ∧
      LeftByStep Bench.host unshown c' (.display ⟨"display gone"⟩) := by
  have hi : decode unshown.machine.fetch = .ok (.draw 0 1 1) :=
    decode_eq_ok_iff.2 (by decide +kernel)
  obtain ⟨_, _, _, hd⟩ := unshown.machine.draw_cases 0 1 1
  have hstep : ∃ c', unshown.step Bench.host =
      (.error (.error (.display ⟨"display gone"⟩)), c') := by
    rw [step_of_decode hi, Machine.execute, hd]
    exact ⟨_, rfl⟩
  obtain ⟨c', hc⟩ := hstep
  exact ⟨c', hc, (failures_leave Bench.host unshown).1 _ c' hc⟩

end Chip8.Computer
