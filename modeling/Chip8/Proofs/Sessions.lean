import Chip8.Proofs.Interleaving
import Chip8.Proofs.RunLoop
import Chip8.Terminal.Session

/-! # Sessions as interleavings

A session lets its reader work by a schedule, at each tick and before each look at the channel. Its
runs are among the interleavings of reader and run loop, so what holds of all of these holds of
every run in a terminal, whatever the schedule is. -/

namespace Chip8.Terminal

open Computer

/-! ## Reaching worlds -/

namespace World

variable {ε : Type} {devices : Host ε} {tick : ε → ε} {w w₁ w₂ : World ε}

/-- Some steps of the two processes lead from one world to the other. -/
def Leads (devices : Host ε) (tick : ε → ε) (w w' : World ε) : Prop :=
  ∃ steps, w.play devices tick steps = w'

theorem Leads.refl (w : World ε) : Leads devices tick w w := ⟨[], rfl⟩

theorem Leads.trans (h : Leads devices tick w w₁) (h' : Leads devices tick w₁ w₂) :
    Leads devices tick w w₂ := by
  obtain ⟨steps, rfl⟩ := h
  obtain ⟨steps', rfl⟩ := h'
  exact ⟨steps ++ steps', List.foldl_append⟩

theorem leads_reader (w : World ε) : Leads devices tick w w.readerStep := ⟨[.reader], rfl⟩

theorem leads_machine (now : Nat) (w : World ε) :
    Leads devices tick w (w.machineStep devices tick now) := ⟨[.machine now], rfl⟩

end World

namespace Session

variable {c c' : Computer Session} {w : World Session}

/-- A session without keypad and reader. -/
def unplugged (s : Session) : Session :=
  { s with
    latch := .ofHold 0
    reader := { unread := [] }
    link := {}
    schedule := fun _ ↦ 0
    moment := 0 }

/-- What passes of a tick before the reader gets to work. -/
def wait (s : Session) : Session :=
  let (now, clock) := s.clock.tick s.now
  { s with now, clock }

theorem shows_unplugged (result : Except KeypadError UInt8) :
    (host.answering result).Shows (host.answering result) unplugged where
  draw grid s := by
    show draw grid s.unplugged = Prod.map id unplugged (draw grid s)
    unfold draw
    split <;> rfl
  key _ := rfl
  cue _ := rfl

/-- Drawings and cues keep off keypad and reader. -/
theorem keeps_link (result : Except KeypadError UInt8) :
    (host.answering result).Keeps fun s ↦ (s.latch, s.reader, s.link) where
  draw grid s := by
    show (fun s : Session ↦ (s.latch, s.reader, s.link)) (draw grid s).2 = _
    unfold draw
    split <;> rfl
  key _ := rfl
  cue _ := rfl

/-- The world is the computer's, split into the parts that the two processes work on. -/
structure Mirrors (c : Computer Session) (w : World Session) : Prop where
  computer : w.computer = c.seen id unplugged
  latch : w.latch = c.outside.latch
  reader : w.reader = c.outside.reader
  link : w.link = c.outside.link

/-- The world leads to one that mirrors `c`, with the run loop at `stage`. -/
def LeadsTo (w : World Session) (c : Computer Session) (stage : Stage) : Prop :=
  ∃ w', w.Leads host wait w' ∧ Mirrors c w' ∧ w'.stage = stage

theorem LeadsTo.of_leads {w₁ : World Session} {stage : Stage} (h' : LeadsTo w₁ c stage)
    (h : w.Leads host wait w₁) : LeadsTo w c stage := by
  obtain ⟨w', hw', hm, hs⟩ := h'
  exact ⟨w', h.trans hw', hm, hs⟩

theorem Mirrors.asksKey_eq (h : Mirrors c w) : w.computer.asksKey = c.asksKey := by
  rw [h.computer]
  rfl

theorem Mirrors.keypad_eq (h : Mirrors c w) : w.keypad = c.outside.keypad := by
  rw [World.keypad, h.link, h.latch]
  rfl

/-! ## Reads and looks -/

theorem Mirrors.readerStep (h : Mirrors c w) :
    Mirrors { c with outside := { c.outside with
      reader := (Reader.step (c.outside.reader, c.outside.link)).1
      link := (Reader.step (c.outside.reader, c.outside.link)).2 } } w.readerStep where
  computer := h.computer
  latch := h.latch
  reader := by
    rw [← h.reader, ← h.link]
    rfl
  link := by
    rw [← h.reader, ← h.link]
    rfl

theorem Mirrors.reads (h : Mirrors c w) (n : Nat) :
    LeadsTo w { c with outside := { c.outside with
      reader := (Reader.steps n (c.outside.reader, c.outside.link)).1
      link := (Reader.steps n (c.outside.reader, c.outside.link)).2 } } w.stage := by
  induction n generalizing c w with
  | zero => exact ⟨w, .refl w, h, rfl⟩
  | succ n ih =>
    exact (ih h.readerStep).of_leads (World.leads_reader w)

/-- The steps that a schedule gives to the reader. -/
theorem Mirrors.letRead (h : Mirrors c w) :
    LeadsTo w { c with outside := c.outside.letRead } w.stage := by
  obtain ⟨w', hw', ⟨hcomputer, hlatch, hreader, hlink⟩, hs⟩ :=
    h.reads (c.outside.schedule c.outside.moment)
  exact ⟨w', hw', ⟨hcomputer, hlatch, hreader, hlink⟩, hs⟩

theorem pending_letRead (s : Session) :
    Reader.pending s.letRead.reader s.letRead.link ≤ Reader.pending s.reader s.link :=
  Reader.pending_steps (s.schedule s.moment) (s.reader, s.link)

/-- A look that is not the last has taken a message. -/
theorem pending_putKeypad (s : Session) {now : Nat} {k : TerminalKeypad}
    (h : s.keypad.look now = .again k) :
    Reader.pending (s.putKeypad k).reader (s.putKeypad k).link + 1 =
      Reader.pending s.reader s.link := by
  obtain ⟨key, rest, hq, hl⟩ | ⟨_, _, hl⟩ | ⟨_, _, _, hl⟩ | ⟨_, _, hl⟩ | ⟨_, hl⟩ :=
    TerminalKeypad.look_cases now s.keypad
  · cases h.symm.trans hl
    change s.link.channel.queue = _ at hq
    rw [Reader.pending, Reader.pending, hq]
    show rest.length + s.reader.unread.length + s.reader.phase.inHand + 1 =
      rest.length + 1 + s.reader.unread.length + s.reader.phase.inHand
    omega
  all_goals cases h.symm.trans hl

theorem Mirrors.put (h : Mirrors c w) (k : TerminalKeypad) {received : List Message}
    {stage : Stage} :
    Mirrors { c with outside := c.outside.putKeypad k }
      { w with
        link := { w.link with channel := k.channel }, latch := k.latch, received, stage } where
  computer := h.computer
  latch := rfl
  reader := h.reader
  link := by
    rw [h.link]
    rfl

/-- As long as no more messages can come than looks are left, a query is answered by one of its
looks. -/
theorem Mirrors.looks {limit : Nat} (h : Mirrors c w) (hstage : w.stage = .cycling)
    (hasks : c.asksKey = true)
    (hlimit : Reader.pending c.outside.reader c.outside.link < limit) :
    LeadsTo w { c with outside := (Session.looks limit c.outside).2 }
      (.answered (Session.looks limit c.outside).1) := by
  induction limit generalizing c w with
  | zero => exact absurd hlimit (Nat.not_lt_zero _)
  | succ limit ih =>
    obtain ⟨w₁, hw₁, hm₁, hs₁⟩ := h.letRead
    rw [hstage] at hs₁
    have hpending := pending_letRead c.outside
    have hlook : w₁.machineStep host wait c.outside.letRead.now =
        w₁.look c.outside.letRead.now := by
      rw [World.machineStep, hs₁, hm₁.asksKey_eq]
      exact if_pos hasks
    have hw₂ := hw₁.trans (World.leads_machine c.outside.letRead.now w₁)
    rw [hlook, World.look, hm₁.keypad_eq] at hw₂
    rw [Session.looks]
    cases hl : c.outside.letRead.keypad.look c.outside.letRead.now with
    | answer result k =>
      simp only [hl] at hw₂ ⊢
      exact ⟨_, hw₂, hm₁.put k, rfl⟩
    | again k =>
      simp only [hl] at hw₂ ⊢
      have htaken := pending_putKeypad c.outside.letRead hl
      have hless : Reader.pending (c.outside.letRead.putKeypad k).reader
          (c.outside.letRead.putKeypad k).link < limit := by omega
      exact (ih (hm₁.put k) hs₁ hasks hless).of_leads hw₂

theorem Mirrors.key (h : Mirrors c w) (hstage : w.stage = .cycling) (hasks : c.asksKey = true) :
    LeadsTo w { c with outside := (host.key c.outside).2 }
      (.answered (host.key c.outside).1) := by
  refine h.looks hstage hasks ?_
  have hhand := c.outside.reader.phase.inHand_le
  show _ + _ + _ < _
  omega

/-! ## Cycles and turns -/

theorem Mirrors.endCycle (h : Mirrors c w) (result : Except KeypadError UInt8) :
    Mirrors (c.cycle (host.answering result)).2 (w.endCycle (host.answering result)) ∧
      (w.endCycle (host.answering result)).stage =
        .afterCycle (c.cycle (host.answering result)).1 := by
  have hcycle := cycle_seen Machine.unnoticed_id (shows_unplugged result) c
  rw [← h.computer] at hcycle
  have hkeeps := cycle_keeps (keeps_link result) c
  refine ⟨⟨?_, ?_, ?_, ?_⟩, ?_⟩
  · exact congrArg Prod.snd hcycle
  · exact h.latch.trans (congrArg (·.1) hkeeps).symm
  · exact h.reader.trans (congrArg (·.2.1) hkeeps).symm
  · exact h.link.trans (congrArg (·.2.2) hkeeps).symm
  · exact congrArg (fun answer ↦ Stage.afterCycle answer.1) hcycle

theorem Mirrors.cycle (h : Mirrors c w) (hstage : w.stage = .cycling) :
    LeadsTo w (c.cycle host).2 (.afterCycle (c.cycle host).1) := by
  cases hasks : c.asksKey with
  | true =>
    obtain ⟨w₁, hw₁, hm₁, hs₁⟩ := h.key hstage hasks
    have hend : w₁.machineStep host wait 0 =
        w₁.endCycle (host.answering (host.key c.outside).1) := by
      rw [World.machineStep, hs₁]
    rw [cycle_answering hasks]
    obtain ⟨hm, hs⟩ := hm₁.endCycle (host.key c.outside).1
    exact ⟨_, hw₁.trans (hend ▸ World.leads_machine 0 w₁), hm, hs⟩
  | false =>
    have hend : w.machineStep host wait 0 = w.endCycle (host.answering (.error .noKey)) := by
      have hcomputer := h.asksKey_eq.trans hasks
      simp only [World.machineStep, hstage, hcomputer, World.endCycle,
        cycle_answering_of_not_asksKey hcomputer]
      rfl
    rw [← cycle_answering_of_not_asksKey hasks (.error .noKey)]
    obtain ⟨hm, hs⟩ := h.endCycle (.error .noKey)
    exact ⟨_, hend ▸ World.leads_machine 0 w, hm, hs⟩

/-- The tick of a turn, and what the reader gets done by the end of it. -/
theorem Mirrors.ticked (h : Mirrors c w) (hstage : w.stage = .waiting) :
    LeadsTo w (c.ticked pace) .checking := by
  have hwait : w.machineStep host wait 0 = { w with
      computer := { w.computer with outside := wait w.computer.outside }
      stage := .checking } := by
    rw [World.machineStep, hstage]
  have hmirrors : Mirrors { c with outside := wait c.outside }
      { w with
        computer := { w.computer with outside := wait w.computer.outside }
        stage := .checking } := by
    refine ⟨?_, h.latch, h.reader, h.link⟩
    rw [h.computer]
    rfl
  exact hmirrors.letRead.of_leads (hwait ▸ World.leads_machine 0 w)

theorem Mirrors.turn (h : Mirrors c w) (hstage : w.stage = .waiting) :
    (∃ c', c.turn host pace = .going c' ∧ LeadsTo w c' .waiting) ∨
      ∃ result c', c.turn host pace = .over result c' ∧ LeadsTo w c' (.ended result) := by
  obtain ⟨w₁, hw₁, hm₁, hs₁⟩ := h.ticked hstage
  have hstopped : w₁.link.stopped = pace.stopRequested (c.ticked pace).outside := by
    rw [hm₁.link]
    rfl
  have hcheck : w₁.machineStep host wait 0 =
      { w₁ with stage := if w₁.link.stopped then .ended (.ok ()) else .cycling } := by
    rw [World.machineStep, hs₁]
  have hw₂ := hw₁.trans (World.leads_machine 0 w₁)
  rw [hcheck, hstopped] at hw₂
  have hm₂ : ∀ stage, Mirrors (c.ticked pace) { w₁ with stage } :=
    fun _ ↦ ⟨hm₁.computer, hm₁.latch, hm₁.reader, hm₁.link⟩
  obtain ⟨hstop, ht⟩ | ⟨hstop, word, c', hc, ht⟩ | ⟨hstop, halt, c', hc, ht⟩ :=
    turn_cases host pace c
  all_goals rw [hstop] at hw₂
  · exact .inr ⟨_, _, ht, _, hw₂, hm₂ _, rfl⟩
  · have hcycle := (hm₂ .cycling).cycle rfl
    rw [hc] at hcycle
    exact .inl ⟨c', ht, hcycle.of_leads hw₂⟩
  · have hcycle := (hm₂ .cycling).cycle rfl
    rw [hc] at hcycle
    exact .inr ⟨_, c', ht, hcycle.of_leads hw₂⟩

theorem Mirrors.loop {limit : Nat} {result : Except Halt Unit} (h : Mirrors c w)
    (hstage : w.stage = .waiting) (hl : c.loop host pace limit = some (result, c')) :
    LeadsTo w c' (.ended result) := by
  induction limit generalizing c w with
  | zero => cases hl
  | succ limit ih =>
    rw [Computer.loop] at hl
    obtain ⟨c₁, ht, w₁, hw₁, hm₁, hs₁⟩ | ⟨_, _, ht, hw⟩ := h.turn hstage
    · rw [ht] at hl
      exact (ih hm₁ hs₁ hl).of_leads hw₁
    · rw [ht] at hl
      cases hl
      exact hw

/-- The world of a session that is about to begin. -/
def world (m : Machine) (s : Session) (events : List Event) : World Session :=
  .start ⟨m, s.unplugged⟩ keyHold events

/-- A run in a terminal is one of the interleavings of its reader and its run loop. -/
theorem run_leads {m : Machine} {speaker : Speaker} {hz limit : Nat} {events : List Event}
    {schedule : Nat → Nat} {result : Except Halt Unit}
    (h : (⟨m, start speaker hz events schedule⟩ : Computer Session).run host pace limit =
      some (result, c')) :
    ∃ w, World.Leads host wait
        (world (m.withRunState .running) (start speaker hz events schedule) events) w ∧
      w.stage = .ended result ∧ w.reader = c'.outside.reader ∧ w.link = c'.outside.link := by
  obtain ⟨⟨_, c₁⟩, hl, he⟩ := Option.map_eq_some_iff.1 h
  cases he
  have hstart : Mirrors
      ((⟨m, start speaker hz events schedule⟩ : Computer Session).setRunState .running)
      (world (m.withRunState .running) (start speaker hz events schedule) events) :=
    ⟨rfl, rfl, rfl, rfl⟩
  obtain ⟨w, hw, hm, hs⟩ := hstart.loop rfl hl
  exact ⟨w, hw, hs, by rw [settle_outside, hm.reader], by rw [settle_outside, hm.link]⟩

end Session

namespace World

/-- What holds of a list of events, whatever else there is. -/
structure QuitsOrderly (events : List Event) : Prop where
  /-- All worlds are in order that reader and run loop can bring about. -/
  worlds : ∀ {ε : Type} (devices : Host ε) (tick : ε → ε) (c : Computer ε) (hold : Nat) steps,
    ((start c hold events).play devices tick steps).Orderly
  /-- A run in a terminal ends in one of them, and so not with a failure of its keypad. -/
  runs : ∀ (m : Machine) (speaker : Speaker) (hz limit : Nat) (schedule : Nat → Nat) result c',
    (⟨m, .start speaker hz events schedule⟩ : Computer Session).run Session.host Session.pace
        limit = some (result, c') →
      (∃ w, Leads Session.host Session.wait
        (Session.world (m.withRunState .running) (.start speaker hz events schedule) events) w ∧
          w.stage = .ended result ∧ w.reader = c'.outside.reader ∧ w.link = c'.outside.link) ∧
        ∀ e, result ≠ .error (.error (.keypad e))

/-- Reader and run loop stay in order, whatever the order of their steps is, where the first event
that ends the reading asks to quit. -/
theorem quits_orderly {events : List Event} (h : QuitsFirst events) : QuitsOrderly events where
  worlds _ _ c hold _ := (start_inv c hold h).play.orderly
  runs _ _ _ _ _ result _ hr := by
    obtain ⟨w, hw, hs, hends⟩ := Session.run_leads hr
    refine ⟨⟨w, hw, hs, hends⟩, fun e ↦ ?_⟩
    obtain ⟨_, rfl⟩ := hw
    exact (start_inv _ _ h).play.orderly.result result e hs

/-- The events of the key `q` and of escape. -/
def pressedAndQuit : List Event := [.char 'q' {}, .key .escape]

/-- The program `F00A` beside a reader with these events. -/
def awaiting : World Bench :=
  start ((onBench .null).load (.ofBytes [0xF0, 0x0A])).2 Session.keyHold pressedAndQuit

/-- The key is sent, and a query takes it out of the channel; before its next look the stop flag
goes up, and the message that quits is not there yet. -/
def overtaken : List Process :=
  [.reader, .reader, .machine 0, .machine 0, .machine 0, .reader, .reader, .machine 0]

/-- The query answers the key with the flag up, and its cycle is the one that ends late. -/
theorem quits_orderly_overtaken :
    ∃ w, awaiting.play Bench.host Bench.pace.tick overtaken = w ∧ w.link.stopped = true ∧
      w.stage = .answered (.ok 4) ∧ .key 4 ∈ w.sent ∧ newestKey w.received = some 4 ∧
      (w.play Bench.host Bench.pace.tick [.machine 0, .machine 0, .machine 0]).late = 1 ∧
      (w.play Bench.host Bench.pace.tick [.machine 0, .machine 0, .machine 0]).stage =
        .ended (.ok ()) := by
  have hquits : QuitsFirst pressedAndQuit := by
    intro m hm
    have hfirst : (pressedAndQuit.filterMap Event.message?).find? Message.isLast = some .quit := by
      decide
    exact (Option.some.inj (hfirst.symm.trans hm)).symm
  have hstage : (awaiting.play Bench.host Bench.pace.tick overtaken).stage = .answered (.ok 4) := by
    decide +kernel
  obtain ⟨hsent, hnewest⟩ := ((quits_orderly hquits).worlds Bench.host Bench.pace.tick
    ((onBench .null).load (.ofBytes [0xF0, 0x0A])).2 Session.keyHold overtaken).key 4 hstage
  refine ⟨_, rfl, ?_, hstage, hsent, hnewest, ?_, ?_⟩
  all_goals decide +kernel

end World

end Chip8.Terminal
