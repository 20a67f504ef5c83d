import Chip8.Proofs.Failure
import Chip8.Proofs.History
import Chip8.Proofs.Screens
import Chip8.Proofs.Trace
import Chip8.Terminal.Session
import Mathlib.Data.List.Induction

/-! # What is drawn is shown

The screen that a machine draws to shows the grid as the latest drawing has left it, whatever else
happens to the machine, and it takes every grid that it is offered. -/

namespace Chip8

variable {ε : Type}

/-! ## Frames for a screen -/

namespace Display

open Terminal Screen

/-- A display after it has been given one frame after the other. -/
def afterFrames (d : Display) (frames : List (Array UInt8)) : Display :=
  frames.foldl (fun d data ↦ (d.drawFrame data).2) d

/-- The latest frame that has as many bytes as there are pixels. -/
def lastTaken? (frames : List (Array UInt8)) : Option (Array UInt8) :=
  (frames.filter fun data ↦ data.size = 2048).getLast?

/-- What the screen `s` makes of a frame. -/
structure TakesFrame (s : Screen) (data : Array UInt8) : Prop where
  accepted : ((screen s).drawFrame data).1 = .ok () ↔ data.size = 2048
  refused : data.size ≠ 2048 → (screen s).drawFrame data =
    (.error ⟨"MonoTermDisplay needs 2048 pixels to draw, got " ++ Numeral.decimal data.size⟩,
      screen s)
  /-- The new lines tell nothing of `s`. -/
  shown : data.size = 2048 → ∃ s', (screen s).drawFrame data = (.ok (), screen s') ∧
    s'.lines = framed fun x y ↦ mark data[y * 64 + x]?

theorem drawFrame_of_size_eq {s : Screen} {data : Array UInt8} (h : data.size = 2048) :
    (screen s).drawFrame data = (.ok (), screen (ofFrame data)) := by
  rw [drawFrame, draw_of_size_eq h]

theorem drawFrame_of_size_ne {s : Screen} {data : Array UInt8} (h : data.size ≠ 2048) :
    (screen s).drawFrame data =
      (.error ⟨"MonoTermDisplay needs 2048 pixels to draw, got " ++ Numeral.decimal data.size⟩,
        screen s) := by
  have hdecimal : Numeral.decimal resolution.pixelCount = "2048" := by decide +kernel
  have hcount : ¬ data.size = resolution.pixelCount := h
  rw [drawFrame, Screen.draw, if_neg hcount, hdecimal]
  rfl

theorem takesFrame (s : Screen) (data : Array UInt8) : TakesFrame s data where
  accepted := by
    constructor
    · intro h
      by_contra hne
      rw [drawFrame_of_size_ne hne] at h
      cases h
    · intro h
      rw [drawFrame_of_size_eq h]
  refused := drawFrame_of_size_ne
  shown h := ⟨_, drawFrame_of_size_eq h, lines_ofFrame data⟩

theorem lastTaken?_append_singleton (frames : List (Array UInt8)) (data : Array UInt8) :
    lastTaken? (frames ++ [data]) = if data.size = 2048 then some data else lastTaken? frames := by
  rw [lastTaken?, List.filter_append, List.filter_singleton]
  by_cases h : data.size = 2048 <;> simp [h, lastTaken?]

/-- After any frames a screen is that of the latest one that was taken. -/
theorem afterFrames_screen (s : Screen) (frames : List (Array UInt8)) :
    afterFrames (screen s) frames = screen ((lastTaken? frames).elim s ofFrame) := by
  induction frames using List.reverseRecOn with
  | nil => rfl
  | append_singleton frames data ih =>
    rw [afterFrames, List.foldl_append, List.foldl_cons, List.foldl_nil,
      lastTaken?_append_singleton]
    change ((afterFrames (screen s) frames).drawFrame data).2 = _
    rw [ih]
    by_cases h : data.size = 2048
    · rw [drawFrame_of_size_eq h, if_pos h]
      rfl
    · rw [drawFrame_of_size_ne h, if_neg h]

end Display

/-! ## A machine and its display -/

/-- `display` is the display of the host: it is offered the grids, and no other call changes it. -/
structure Host.UsesDisplay (host : Host ε) (display : ε → Display) : Prop where
  draw (grid : Grid) (e : ε) :
    ((host.draw grid e).1, display (host.draw grid e).2) = (display e).draw grid
  key (e : ε) : display (host.key e).2 = display e
  cue (e : ε) : display (host.cue e).2 = display e

/-- A display after a request. -/
def Display.serve (d : Display) : Request → Display
  | .draw grid => (d.draw grid).2
  | _ => d

theorem Host.UsesDisplay.follows {host : Host ε} {display : ε → Display}
    (h : host.UsesDisplay display) : host.Follows display Display.serve where
  draw grid e := congrArg Prod.snd (h.draw grid e)
  key := h.key
  cue := h.cue

namespace Terminal.Session

theorem screen_looks (limit : Nat) (s : Session) : (looks limit s).2.screen = s.screen := by
  induction limit generalizing s with
  | zero => rfl
  | succ limit ih =>
    rw [looks]
    split
    · rw [ih]
      rfl
    · rfl

theorem usesDisplay : host.UsesDisplay fun s ↦ .screen s.screen where
  draw grid s := by
    show ((draw grid s).1, Display.screen (draw grid s).2.screen) =
      (Display.screen s.screen).drawFrame grid.frame
    rw [draw, Display.drawFrame]
    cases Screen.draw grid.frame <;> rfl
  key s := congrArg Display.screen (screen_looks _ s)
  cue _ := rfl

end Terminal.Session

namespace Computer

open Instruction Terminal

variable {host : Host ε} {display : ε → Display} {c c₁ c₂ : Computer ε} {drawn : Option Grid}

/-- The grid that was drawn last, after a step: that of the machine behind a drawing, as it was
before with any other instruction. -/
def drawnAfterStep (host : Host ε) (c : Computer ε) (drawn : Option Grid) : Option Grid :=
  match decode? c.machine.fetch with
  | some (.draw _ _ _) => some (c.step host).2.machine.grid
  | _ => drawn

/-- What `c` may have become while nothing but the machine has used its display, with the grid as it
stood right after the latest drawing, if there was one. -/
inductive Played (host : Host ε) (display : ε → Display) (c : Computer ε) :
    Option Grid → Computer ε → Prop
  | start : Played host display c none c
  /-- The step may fail. -/
  | step {drawn : Option Grid} {c₁ : Computer ε} : Played host display c drawn c₁ →
      Played host display c (drawnAfterStep host c₁ drawn) (c₁.step host).2
  | countDown {drawn : Option Grid} {c₁ : Computer ε} : Played host display c drawn c₁ →
      Played host display c drawn (c₁.countDown host).2
  | load {drawn : Option Grid} {c₁ : Computer ε} (source : Source) :
      Played host display c drawn c₁ → Played host display c drawn (c₁.load source).2
  | runState {drawn : Option Grid} {c₁ : Computer ε} (s : RunState) :
      Played host display c drawn c₁ → Played host display c drawn (c₁.setRunState s)
  /-- Anything else outside may change. -/
  | outside {drawn : Option Grid} {c₁ : Computer ε} {outside : ε} :
      Played host display c drawn c₁ → display outside = display c₁.outside →
      Played host display c drawn { c₁ with outside }

/-- The call leaves the display to the machine. -/
def Call.Spares (display : ε → Display) : Call ε → Prop
  | .run pace _ => ∀ e, display (pace.tick e) = display e
  | _ => True

/-- What the screen of a computer shows and answers while it is played. -/
structure KeepsShowing (host : Host ε) (display : ε → Display) (c : Computer ε) : Prop where
  /-- The cells inside the border are the pixels of the grid that was drawn last. -/
  shows : ∀ drawn c₁, Played host display c drawn c₁ → ∃ s, display c₁.outside = .screen s ∧
    ∀ (x : Fin Grid.width) (y : Fin Grid.height), s.cell (x + 1) (y + 1) =
      if (drawn.getD .blank).get (.at x y) then Screen.block else ' '
  /-- No step fails with the display. -/
  accepts : ∀ drawn c₁, Played host display c drawn c₁ →
    ∀ d, (c₁.step host).1 ≠ .error (.error (.display d))
  /-- Neither does any call, which leads on as the steps in it do. -/
  calls : ∀ drawn c₁, Played host display c drawn c₁ → ∀ call : Call ε, call.Spares display →
    ∀ result c₂, call.make host c₁ = some (result, c₂) →
      (∀ d, result ≠ .error (.error (.display d))) ∧ ∃ drawn', Played host display c drawn' c₂

/-! ### The grid on the screen -/

/-- The screen on which a grid has been drawn. -/
def screenOf (grid : Grid) : Screen := .ofFrame grid.frame

theorem draw_screen (grid : Grid) (s : Screen) :
    (Display.screen s).draw grid = (.ok (), .screen (screenOf grid)) :=
  Display.drawFrame_of_size_eq (Grid.size_frame grid)

theorem getElem?_frame (grid : Grid) (x : Fin Grid.width) (y : Fin Grid.height) :
    grid.frame[y.val * 64 + x.val]? = some (if grid.get (.at x y) then 1 else 0) := by
  have hlt : y.val * 64 + x.val < grid.pixels.toArray.size := by
    have hx := x.isLt
    have hy := y.isLt
    simp only [Grid.width, Grid.height, Vector.size_toArray] at *
    omega
  rw [Grid.frame, Array.getElem?_map, Array.getElem?_eq_getElem hlt, Vector.getElem_toArray]
  rfl

theorem cell_screenOf (grid : Grid) (x : Fin Grid.width) (y : Fin Grid.height) :
    (screenOf grid).cell (x + 1) (y + 1) =
      if grid.get (.at x y) then Screen.block else ' ' := by
  have hx := x.isLt
  have hy := y.isLt
  simp only [Grid.width, Grid.height] at hx hy
  have hcolumn : x.val + 1 < Screen.columns := by
    simp only [Screen.columns]
    omega
  have hrow : y.val + 1 < Screen.rows := by
    simp only [Screen.rows]
    omega
  have hin : Screen.Inside (x.val + 1) (y.val + 1) := ⟨⟨by omega, by omega⟩, by omega, by omega⟩
  rw [screenOf, Screen.cell_ofFrame _ hcolumn hrow, if_pos hin, Nat.add_sub_cancel,
    Nat.add_sub_cancel, getElem?_frame, Screen.mark]
  cases grid.get (.at x y) <;> rfl

theorem cell_empty (x y : Nat) : Screen.empty.cell x y = ' ' := by
  rw [Screen.cell, Screen.empty]
  split
  · simp [Array.getD_eq_getD_getElem?, Array.getElem?_replicate]
    split <;> rfl
  · rfl

/-- The screen for the grid that was drawn last. -/
def screenFor (drawn : Option Grid) : Screen := drawn.elim .empty screenOf

theorem cell_screenFor (drawn : Option Grid) (x : Fin Grid.width) (y : Fin Grid.height) :
    (screenFor drawn).cell (x + 1) (y + 1) =
      if (drawn.getD .blank).get (.at x y) then Screen.block else ' ' := by
  cases drawn with
  | none =>
    rw [screenFor, Option.elim_none, cell_empty, Option.getD_none, Grid.get_blank]
    rfl
  | some grid => exact cell_screenOf grid x y

/-! ### Steps -/

/-- The instructions other than drawings leave the display as it is, and a drawing leaves it the
screen of its grid. -/
theorem display_step (hu : host.UsesDisplay display)
    (hd : display c.outside = .screen (screenFor drawn)) :
    display (c.step host).2.outside = .screen (screenFor (drawnAfterStep host c drawn)) := by
  rw [step_follows hu.follows, drawnAfterStep]
  split
  · next x y rows hi =>
    rw [stepRequests_draw host hi, List.foldl_cons, List.foldl_nil, hd, Display.serve, draw_screen]
    rfl
  · next hother =>
    rw [← hd, stepRequests]
    cases hi : decode? c.machine.fetch with
    | none => rfl
    | some i => cases i with
      | draw x y rows => exact absurd hi (hother x y rows)
      | _ => rfl

theorem step_ne_display (hu : host.UsesDisplay display) {s : Screen}
    (hd : display c.outside = .screen s) (d : DeviceError) :
    (c.step host).1 ≠ .error (.error (.display d)) := by
  intro he
  have hstep : c.step host = (.error (.error (.display d)), (c.step host).2) := Prod.ext he rfl
  generalize (c.step host).2 = c₁ at hstep
  have hf := step_failure hstep
  generalize heq : Error.display d = e at hf
  cases hf with
  | unknown hdecode =>
    obtain ⟨_, rfl⟩ := decode_eq_error_iff.1 hdecode
    cases heq
  | overflow => cases heq
  | underflow => cases heq
  | @keypad _ _ k => cases k <;> cases heq
  | @display _ _ _ m d' _ _ _ hdraw =>
    have htaken := congrArg Prod.fst (hu.draw m.grid c.outside)
    rw [hdraw, hd, draw_screen] at htaken
    cases htaken

theorem display_countDown (hu : host.UsesDisplay display) (c : Computer ε) :
    display (c.countDown host).2.outside = display c.outside := by
  rw [countDown_follows hu.follows, timerRequests]
  split <;> rfl

theorem Played.display_eq (hu : host.UsesDisplay display)
    (hd : display c.outside = .screen .empty) (h : Played host display c drawn c₁) :
    display c₁.outside = .screen (screenFor drawn) := by
  induction h with
  | start => exact hd
  | step _ ih => exact display_step hu ih
  | @countDown _ c₁ _ ih => rw [display_countDown hu, ih]
  | @load _ c₁ source _ ih =>
    rw [← ih, Computer.load]
    cases c₁.machine.load source <;> rfl
  | runState _ _ ih => exact ih
  | outside _ ho ih => rw [ho, ih]

/-! ### Calls -/

/-- What a cycle does behind its step draws nothing. -/
theorem Played.cycle (h : Played host display c drawn c₁) :
    Played host display c (drawnAfterStep host c₁ drawn) (c₁.cycle host).2 := by
  have hstep := h.step
  have hdown : Played host display c _ ((c₁.step host).2.countDown host).2 := hstep.countDown
  obtain ⟨_, c₂, hs, hc⟩ | ⟨c₂, d, outside, hs, hone, hq, hc⟩ | ⟨c₂, c₃, hs, hd, hc⟩ :=
    cycle_cases host c₁
  · rw [hs] at hstep
    rw [hc]
    exact hstep
  · have hfailed : (c₂.countDown host).2 = { c₂ with outside } := by
      rw [Computer.countDown, if_pos hone, hq]
    rw [hs, hfailed] at hdown
    rw [hc]
    exact hdown
  · rw [hs, hd] at hdown
    rw [hc]
    exact hdown

theorem cycle_ne_display (hu : host.UsesDisplay display) {s : Screen}
    (hd : display c.outside = .screen s) (d : DeviceError) :
    (c.cycle host).1 ≠ .error (.error (.display d)) := by
  have hne := step_ne_display hu hd d
  obtain ⟨halt, _, hs, hc⟩ | ⟨_, _, _, _, _, _, hc⟩ | ⟨_, _, _, _, hc⟩ := cycle_cases host c
  · rw [hs] at hne
    rw [hc]
    intro he
    exact hne (by cases he; rfl)
  · rw [hc]
    nofun
  · rw [hc]
    nofun

/-- A loop whose ticks leave the display alone keeps on playing. -/
theorem Played.loop {pace : Pace ε} {limit : Nat} {result : Except Halt Unit}
    (hu : host.UsesDisplay display) (hd : display c.outside = .screen .empty)
    (htick : ∀ e, display (pace.tick e) = display e) (h : Played host display c drawn c₁)
    (hl : c₁.loop host pace limit = some (result, c₂)) :
    (∀ d, result ≠ .error (.error (.display d))) ∧ ∃ drawn', Played host display c drawn' c₂ := by
  induction limit generalizing drawn c₁ with
  | zero => cases hl
  | succ limit ih =>
    have hticked : Played host display c drawn (c₁.ticked pace) := h.outside (htick _)
    have hcycle := hticked.cycle
    have hne := cycle_ne_display hu (hticked.display_eq hu hd)
    rw [Computer.loop] at hl
    obtain ⟨_, ht⟩ | ⟨_, word, c', hc, ht⟩ | ⟨_, halt, c', hc, ht⟩ := turn_cases host pace c₁
    · rw [ht] at hl
      cases hl
      refine ⟨fun d he ↦ ?_, drawn, hticked⟩
      cases he
    · rw [ht] at hl
      rw [hc] at hcycle
      exact ih hcycle hl
    · rw [ht] at hl
      cases hl
      rw [hc] at hcycle hne
      refine ⟨fun d he ↦ ?_, _, hcycle⟩
      obtain rfl : halt = .error (.display d) := by
        unfold reported at he
        split at he
        · cases he
        · exact Except.error.inj he
      exact hne d rfl

theorem load_ne_display (c : Computer ε) (source : Source) (d : DeviceError) :
    (c.load source).1 ≠ .error (.display d) := by
  obtain ⟨_, _, hl⟩ | ⟨_, _, _, hl⟩ | ⟨_, _, _, hl⟩ := c.load_cases source
  all_goals
    rw [hl]
    nofun

theorem Played.call {call : Call ε} {result : Except Halt Unit} (hu : host.UsesDisplay display)
    (hd : display c.outside = .screen .empty) (hspare : call.Spares display)
    (h : Played host display c drawn c₁) (hm : call.make host c₁ = some (result, c₂)) :
    (∀ d, result ≠ .error (.error (.display d))) ∧ ∃ drawn', Played host display c drawn' c₂ := by
  have hscreen := h.display_eq hu hd
  cases call with
  | load source =>
    cases hm
    refine ⟨fun d he ↦ ?_, drawn, h.load source⟩
    have hne := load_ne_display c₁ source d
    rcases hl : (c₁.load source).1 with e | n
    · rw [hl] at he hne
      exact hne (by cases he; rfl)
    · rw [hl] at he
      cases he
  | step =>
    have hne := step_ne_display hu hscreen
    have hstep := h.step
    rw [Option.some.inj hm] at hne hstep
    exact ⟨hne, _, hstep⟩
  | cycle =>
    cases hm
    refine ⟨fun d he ↦ ?_, _, h.cycle⟩
    have hne := cycle_ne_display hu hscreen d
    rcases hc : (c₁.cycle host).1 with halt | word
    · rw [hc] at he hne
      exact hne (by cases he; rfl)
    · rw [hc] at he
      cases he
  | run pace limit =>
    obtain ⟨⟨result, c'⟩, hl, he⟩ := Option.map_eq_some_iff.1 hm
    cases he
    obtain ⟨hne, drawn', hplayed⟩ := (h.runState .running).loop hu hd hspare hl
    refine ⟨hne, drawn', ?_⟩
    unfold settle
    split
    · exact hplayed
    · exact hplayed.runState .stopped

theorem keepsShowing (hu : host.UsesDisplay display) (hd : display c.outside = .screen .empty) :
    KeepsShowing host display c where
  shows drawn _ h := ⟨screenFor drawn, h.display_eq hu hd, cell_screenFor drawn⟩
  accepts _ _ h := step_ne_display hu (h.display_eq hu hd)
  calls _ _ h _ hspare _ _ hm := h.call hu hd hspare hm

/-- A screen takes the frames of the right size and shows the latest of them, and a machine that
draws to a new screen always has its latest drawing there. -/
theorem screen_showsLatest :
    (∀ frames, ∃ s, Display.afterFrames (.screen .empty) frames = .screen s ∧
      (s.lines.length = 34 ∧ ∀ line ∈ s.lines, line.length = 66) ∧
      s.lines = (Display.lastTaken? frames).elim Screen.empty.lines
        (fun data ↦ Screen.framed fun x y ↦ Screen.mark data[y * 64 + x]?) ∧
      ∀ data, Display.TakesFrame s data) ∧
    ∀ {ε : Type} (host : Host ε) (display : ε → Display), host.UsesDisplay display →
      ∀ c : Computer ε, display c.outside = .screen .empty → KeepsShowing host display c := by
  constructor
  · intro frames
    refine ⟨_, Display.afterFrames_screen .empty frames, Screen.size_lines _, ?_,
      Display.takesFrame _⟩
    cases Display.lastTaken? frames with
    | none => rfl
    | some data => exact Screen.lines_ofFrame data
  · intro ε host display hu c hd
    exact keepsShowing hu hd

/-- The program `D005` in a terminal. -/
def zeroShown : Computer Session :=
  ((⟨.fresh {} 0, .start (.mute 0) 700 [] fun _ ↦ 0⟩ : Computer Session).load
    (.ofBytes [0xD0, 0x05])).2

/-- The first pixel of the digit is in the first cell inside the border. -/
theorem screen_showsLatest_zeroShown :
    (zeroShown.step Session.host).2.outside.screen.cell 1 1 = Screen.block := by
  have hkeeps := screen_showsLatest.2 Session.host (fun s ↦ .screen s.screen) Session.usesDisplay
    zeroShown rfl
  obtain ⟨s, hs, hcells⟩ := hkeeps.shows _ _ Played.start.step
  have hi : decode? zeroShown.machine.fetch = some (.draw 0 0 5) := by decide +kernel
  have hlit : (zeroShown.machine.grid.drawSprite (zeroShown.machine.memory.getBlock
      zeroShown.machine.i 5) (zeroShown.machine.reg 0) (zeroShown.machine.reg 0)).1.get
        (.at 0 0) = true := by
    decide +kernel
  have hcell := hcells 0 0
  rw [drawnAfterStep, hi] at hcell
  simp only [Option.getD_some, grid_step_draw Session.host hi] at hcell
  rw [Display.screen.inj hs]
  exact hcell.trans (if_pos hlit)

end Computer

end Chip8
