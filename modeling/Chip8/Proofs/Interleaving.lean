import Chip8.Proofs.Channels
import Chip8.Proofs.Trace
import Mathlib.Control.Monad.Basic

/-! # The reader beside the run loop

The reader of the terminal and the run loop are two processes that take their steps in any order.
They share the stop flag and the channel, and nothing else. Since the flag goes up before the
message that quits is sent, no query learns of the message sooner than the run loop could learn of
the flag.

The steps of the reader are those of `Reader.step`, and those of the run loop are its tick, its look
at the flag, each single look at the channel, and the rest of a cycle. -/

namespace Chip8

/-- The devices with a keypad that gives one answer. -/
def Host.answering {ε : Type} (host : Host ε) (result : Except KeypadError UInt8) : Host ε :=
  { host with key := fun e ↦ (result, e) }

namespace Computer

open Instruction

variable {ε : Type} {host : Host ε} {c : Computer ε}

/-! ## Queries within cycles -/

theorem asksKey_of_decode {i : Instruction} (h : decode c.machine.fetch = .ok i) :
    c.asksKey = i.asksKey := by
  rw [asksKey, decode_eq_ok_iff.1 h, Option.any_some]

theorem execute_of_asksKey {i : Instruction} (m : Machine) (h : i.asksKey = true) :
    ∃ resume, m.execute i = .asking resume := by
  cases i with
  | skipPressed | skipNotPressed | waitKey => exact ⟨_, rfl⟩
  | _ => cases h

theorem asksKey_of_execute {i : Instruction} {m : Machine} {resume : Option UInt8 → Machine}
    (h : m.execute i = .asking resume) : i.asksKey = true := by
  have heff := m.hasEffect_execute i
  rw [h] at heff
  cases heff with
  | asking hasks => obtain rfl | rfl | rfl := hasks <;> rfl

/-- Only the step of a cycle makes use of the keypad. -/
theorem cycle_congr {other : Host ε} {c' : Computer ε} (hm : c.machine = c'.machine)
    (hs : c.step host = c'.step other) (hcue : host.cue = other.cue) :
    c.cycle host = c'.cycle other := by
  have hdown : ∀ c : Computer ε, c.countDown host = c.countDown other := by
    intro c
    rw [countDown, countDown, hcue]
  rw [cycle, cycle, hs, hm]
  simp only [hdown]

/-- A cycle that asks for a key asks once, and goes on as if the answer had been there before. -/
theorem cycle_answering (h : c.asksKey = true) :
    c.cycle host = ({ c with outside := (host.key c.outside).2 } : Computer ε).cycle
      (host.answering (host.key c.outside).1) := by
  refine cycle_congr rfl ?_ rfl
  cases hd : decode c.machine.fetch with
  | error e =>
    rw [asksKey, (decode_eq_error_iff.1 hd).1] at h
    cases h
  | ok i =>
    rw [asksKey_of_decode hd] at h
    obtain ⟨resume, hx⟩ := execute_of_asksKey c.machine h
    have hstep : step (host.answering (host.key c.outside).1)
        { c with outside := (host.key c.outside).2 } = _ := step_of_decode hd
    rw [hstep, step_of_decode hd, hx, perform_asking, perform_asking]
    rfl

/-- A cycle that asks for no key has no use for the keypad. -/
theorem cycle_answering_of_not_asksKey (h : c.asksKey = false)
    (result : Except KeypadError UInt8) : c.cycle (host.answering result) = c.cycle host := by
  refine cycle_congr rfl ?_ rfl
  cases hd : decode c.machine.fetch with
  | error e => rw [step_of_unknown hd, step_of_unknown hd]
  | ok i =>
    rw [asksKey_of_decode hd] at h
    rw [step_of_decode hd, step_of_decode hd]
    cases hx : c.machine.execute i with
    | done | refused | fault | drawn => rfl
    | asking resume => cases h.symm.trans (asksKey_of_execute hx)

theorem reported_eq_keypad {halt : Halt} {e : KeypadError}
    (h : reported halt = .error (.error (.keypad e))) : halt = .error (.keypad e) := by
  unfold reported at h
  split at h
  · cases h
  · exact Except.error.inj h

/-- A cycle fails with the keypad only where the keypad has failed. -/
theorem cycle_ne_keypad
    (hk : ∀ e, c.asksKey = true → (host.key c.outside).1 = .error e → e = .noKey ∨ e = .quit)
    (e : KeypadError) : (c.cycle host).1 ≠ .error (.error (.keypad e)) := by
  intro h
  obtain ⟨halt, c₁, hs, hc⟩ | ⟨_, _, _, _, _, _, hc⟩ | ⟨_, _, _, _, hc⟩ := cycle_cases host c
  · rw [hc] at h
    obtain rfl : halt = .error (.keypad e) := Except.error.inj h
    generalize hfailure : Error.keypad e = failure at hs
    cases step_failure hs with
    | unknown hd =>
      obtain ⟨_, rfl⟩ := decode_eq_error_iff.1 hd
      cases hfailure
    | overflow | underflow | display => cases hfailure
    | @keypad i x k _ hi hasks hkey hne =>
      have hasked : c.asksKey = true := by
        rw [asksKey_of_decode hi]
        obtain rfl | rfl | rfl := hasks <;> rfl
      obtain rfl | rfl := hk k hasked (by rw [hkey])
      · exact hne rfl
      · cases hfailure
  · rw [hc] at h
    cases h
  · rw [hc] at h
    cases h

end Computer

namespace Terminal

variable {ε : Type}

/-! ## Two processes -/

/-- Where the run loop stands. -/
inductive Stage
  /-- Before its next tick. -/
  | waiting
  /-- Before its look at the stop flag. -/
  | checking
  /-- In a cycle, in which a query may be under way. -/
  | cycling
  /-- In a cycle whose query has been answered. -/
  | answered (result : Except KeypadError UInt8)
  | ended (result : Except Halt Unit)
deriving DecidableEq

/-- Whether a cycle has begun and not ended. -/
def Stage.inCycle : Stage → Bool
  | .cycling | .answered _ => true
  | _ => false

/-- Where the run loop stands after a cycle that has ended with `result`. -/
def Stage.afterCycle : Except Halt UInt16 → Stage
  | .ok _ => .waiting
  | .error halt => .ended (Computer.reported halt)

structure World (ε : Type) where
  /-- The machine, and outside of it everything but the keypad and the reader. -/
  computer : Computer ε
  latch : KeyLatch
  reader : Reader
  link : Link
  stage : Stage
  /-- The messages that the reader has put into the channel, oldest first. -/
  sent : List Message
  /-- The messages that queries have taken out of the channel, oldest first. -/
  received : List Message
  /-- How many cycles have ended after the stop flag went up. -/
  late : Nat

namespace World

/-- A run loop before its first tick, and a reader that has not read. -/
def start (c : Computer ε) (hold : Nat) (events : List Event) : World ε where
  computer := c
  latch := .ofHold hold
  reader := { unread := events }
  link := {}
  stage := .waiting
  sent := []
  received := []
  late := 0

def readerStep (w : World ε) : World ε :=
  let (reader, link) := Reader.step (w.reader, w.link)
  { w with reader, link, sent := w.sent ++ w.reader.outgoing w.link.channel }

def keypad (w : World ε) : TerminalKeypad := ⟨w.link.channel, w.latch⟩

/-- One look at the channel, which takes the oldest message. -/
def look (now : Nat) (w : World ε) : World ε :=
  let received := w.received ++ w.link.channel.queue.take 1
  match w.keypad.look now with
  | .again k => { w with link := { w.link with channel := k.channel }, latch := k.latch, received }
  | .answer result k =>
    { w with
      link := { w.link with channel := k.channel }
      latch := k.latch
      received
      stage := .answered result }

/-- What is left of a cycle once its query, if it makes one, has been answered. -/
def endCycle (host : Host ε) (w : World ε) : World ε :=
  let (result, computer) := w.computer.cycle host
  { w with
    computer
    stage := .afterCycle result
    late := w.late + w.link.stopped.toNat }

/-- One step of the run loop, at the time `now`. -/
def machineStep (devices : Host ε) (tick : ε → ε) (now : Nat) (w : World ε) : World ε :=
  match w.stage with
  | .waiting =>
    { w with
      computer := { w.computer with outside := tick w.computer.outside }
      stage := .checking }
  | .checking => { w with stage := if w.link.stopped then .ended (.ok ()) else .cycling }
  | .cycling => if w.computer.asksKey then w.look now else w.endCycle devices
  | .answered result => w.endCycle (devices.answering result)
  | .ended _ => w

end World

/-- Whose step is the next. -/
inductive Process
  | reader
  | machine (now : Nat)

namespace World

variable {devices : Host ε} {tick : ε → ε} {w : World ε}

def step (devices : Host ε) (tick : ε → ε) (w : World ε) : Process → World ε
  | .reader => w.readerStep
  | .machine now => w.machineStep devices tick now

/-- The steps of both processes in the order in which they are taken. -/
def play (devices : Host ε) (tick : ε → ε) (steps : List Process) (w : World ε) : World ε :=
  steps.foldl (step devices tick) w

end World

/-! ## The run loop -/

/-- What the stage of a run loop tells. -/
def Stage.Fits (stopped : Bool) (received : List Message) : Stage → Prop
  | .answered (.ok key) => newestKey received = some key
  | .answered (.error .quit) => stopped = true
  | .answered (.error .unavailable) | .answered (.error (.device _)) => False
  | .ended result => ∀ e, result ≠ .error (.error (.keypad e))
  | .waiting | .checking | .cycling | .answered (.error .noKey) => True

theorem Stage.Fits.mono {stopped stopped' : Bool} {received : List Message} {stage : Stage}
    (h : stage.Fits stopped received) (hs : stopped = true → stopped' = true) :
    stage.Fits stopped' received := by
  cases stage with
  | answered result => rcases result with (_ | _) | _ <;> first | exact h | exact hs h
  | waiting | checking | cycling | ended => exact h

namespace World

variable {devices : Host ε} {tick : ε → ε} {w : World ε} {now : Nat}

/-- What no step of either process breaks. -/
structure Inv (w : World ε) : Prop where
  reader : w.reader.Underway w.link w.sent
  fifo : w.sent = w.received ++ w.link.channel.queue
  latch : ∀ key pressed, w.latch.held = some (key, pressed) → newestKey w.received = some key
  stage : w.stage.Fits w.link.stopped w.received
  /-- Before the flag is up, no cycle can be late. -/
  prompt : w.link.stopped = false → w.late = 0
  /-- A cycle that is under way has begun before the flag went up, so it is the first to be late. -/
  first : w.stage.inCycle = true → w.late = 0
  late : w.late ≤ 1

theorem start_inv (c : Computer ε) (hold : Nat) {events : List Event} (h : QuitsFirst events) :
    (start c hold events).Inv where
  reader := ⟨rfl, h, nofun, nofun⟩
  fifo := rfl
  latch := nofun
  stage := trivial
  prompt _ := rfl
  first _ := rfl
  late := Nat.zero_le 1

theorem Inv.readerStep (h : w.Inv) : w.readerStep.Inv where
  reader := h.reader.step
  fifo := by
    show w.sent ++ _ = w.received ++ (Reader.step (w.reader, w.link)).2.channel.queue
    rw [Reader.queue_step, ← List.append_assoc, ← h.fifo]
  latch := h.latch
  stage := h.stage.mono (Reader.stopped_step w.reader)
  prompt hs := by
    refine h.prompt (Bool.eq_false_iff.2 fun hw ↦ ?_)
    exact Bool.eq_false_iff.1 hs (Reader.stopped_step w.reader hw)
  first := h.first
  late := h.late

/-- The other side of the channel stays in order while messages are taken out of it. -/
theorem Inv.taken {queue received : List Message} {latch : KeyLatch} {stage : Stage} (h : w.Inv)
    (hfirst : w.late = 0) (hfifo : w.sent = received ++ queue)
    (hlatch : ∀ key pressed, latch.held = some (key, pressed) → newestKey received = some key)
    (hstage : stage.Fits w.link.stopped received) :
    ({ w with
      link := { w.link with channel := { w.link.channel with queue } }
      latch, received, stage } : World ε).Inv where
  reader := ⟨h.reader.listened, h.reader.fits, h.reader.closed, h.reader.sent⟩
  fifo := hfifo
  latch := hlatch
  stage := hstage
  prompt _ := hfirst
  first _ := hfirst
  late := h.late

/-- A look at the channel finds what the reader has sent, and what it answers fits. -/
theorem Inv.look (h : w.Inv) (hc : w.stage = .cycling) : (w.look now).Inv := by
  have hfirst : w.late = 0 := h.first (by rw [hc]; rfl)
  have hlatch : ∀ key pressed, w.keypad.latch.held = some (key, pressed) →
      newestKey w.received = some key := h.latch
  obtain ⟨key, rest, hq, hl⟩ | ⟨rest, hq, hl⟩ | ⟨d, rest, hq, _⟩ | ⟨hq, hclosed, hl⟩ | ⟨hq, hl⟩ :=
    TerminalKeypad.look_cases now w.keypad
  all_goals
    change w.link.channel.queue = _ at hq
    have hfifo := h.fifo
    rw [hq] at hfifo
  · simp only [World.look, hl, hq]
    refine h.taken hfirst (by simp [hfifo]) (by simp) ?_
    rw [hc]
    trivial
  · simp only [World.look, hl, hq]
    refine h.taken hfirst (by simp [hfifo]) (by simpa using hlatch) ?_
    obtain ⟨_, hkey⟩ | ⟨_, hs⟩ := h.reader.sent .quit (by simp [hfifo])
    · cases hkey
    · exact hs
  · obtain ⟨_, hkey⟩ | ⟨hquit, _⟩ := h.reader.sent (.failed d) (by simp [hfifo])
    · cases hkey
    · cases hquit
  · simp only [World.look, hl]
    exact h.taken hfirst (by simp [hfifo, hq]) (by simpa [hq] using hlatch)
      (h.reader.closed hclosed)
  · simp only [World.look, hl]
    obtain ⟨key, pressed, hh, hk⟩ | ⟨latch, hh, hk⟩ := w.keypad.latched_cases now
    · rw [hk]
      refine h.taken hfirst (by simp [hfifo, hq]) (by simpa [hq] using hlatch) ?_
      simpa [Stage.Fits, hq] using hlatch key pressed hh
    · rw [hk]
      refine h.taken hfirst (by simp [hfifo, hq]) ?_ trivial
      obtain rfl | hnone := hh
      · simpa [hq] using hlatch
      · simp [hnone]

theorem Inv.endCycle {host : Host ε} (h : w.Inv) (hc : w.stage.inCycle = true)
    (hk : ∀ e, w.computer.asksKey = true → (host.key w.computer.outside).1 = .error e →
      e = .noKey ∨ e = .quit) : (w.endCycle host).Inv where
  reader := h.reader
  fifo := h.fifo
  latch := h.latch
  stage := by
    have hne := Computer.cycle_ne_keypad hk
    show Stage.Fits _ _ (.afterCycle (w.computer.cycle host).1)
    rcases hr : (w.computer.cycle host).1 with halt | _
    · intro e he
      refine hne e ?_
      rw [hr, Computer.reported_eq_keypad he]
    · trivial
  prompt hs := by
    change w.link.stopped = false at hs
    show w.late + w.link.stopped.toNat = 0
    rw [hs, h.prompt hs]
    rfl
  first := by
    show (Stage.afterCycle (w.computer.cycle host).1).inCycle = true → _
    cases (w.computer.cycle host).1 <;> nofun
  late := by
    show w.late + w.link.stopped.toNat ≤ 1
    rw [h.first hc, Nat.zero_add]
    exact Bool.toNat_le _

theorem Inv.machineStep (h : w.Inv) : (w.machineStep devices tick now).Inv := by
  unfold World.machineStep
  split
  · exact ⟨h.reader, h.fifo, h.latch, trivial, h.prompt, nofun, h.late⟩
  · next hc =>
    cases hs : w.link.stopped with
    | true => exact ⟨h.reader, h.fifo, h.latch, nofun, h.prompt, nofun, h.late⟩
    | false => exact ⟨h.reader, h.fifo, h.latch, trivial, h.prompt, fun _ ↦ h.prompt hs, h.late⟩
  · next hc =>
    split
    · exact h.look hc
    · next hasks =>
      exact h.endCycle (by rw [hc]; rfl) fun _ hk ↦ absurd hk hasks
  · next result hc =>
    refine h.endCycle (by rw [hc]; rfl) ?_
    rintro e - he
    obtain rfl : result = .error e := he
    have hfits := h.stage
    rw [hc] at hfits
    cases e with
    | noKey => exact .inl rfl
    | quit => exact .inr rfl
    | unavailable | device => exact hfits.elim
  · exact h

theorem Inv.play {steps : List Process} (h : w.Inv) : (w.play devices tick steps).Inv := by
  induction steps generalizing w with
  | nil => exact h
  | cons p steps ih =>
    refine ih ?_
    cases p with
    | reader => exact h.readerStep
    | machine now => exact h.machineStep

/-! ## What can be seen of the two -/

/-- What holds in every world that the two processes can bring about. -/
structure Orderly (w : World ε) : Prop where
  /-- Messages are taken out in the order in which they were sent, and none is lost. -/
  fifo : w.sent = w.received ++ w.link.channel.queue
  /-- The stop flag is up where a query asks to quit. -/
  quit : w.stage = .answered (.error .quit) → w.link.stopped = true
  /-- A run does not fail with its keypad. -/
  result : ∀ result e, w.stage = .ended result → result ≠ .error (.error (.keypad e))
  /-- At most one cycle ends after the flag went up. -/
  late : w.late ≤ 1
  /-- That cycle had begun before. -/
  begun : w.stage.inCycle = true → w.late = 0
  /-- A key that a query answers has been sent, and is the newest that any query has received. -/
  key : ∀ key, w.stage = .answered (.ok key) →
    .key key ∈ w.sent ∧ newestKey w.received = some key

theorem Inv.orderly (h : w.Inv) : w.Orderly where
  fifo := h.fifo
  quit hq := by
    have hfits := h.stage
    rwa [hq] at hfits
  result result e ho := by
    have hfits := h.stage
    rw [ho] at hfits
    exact hfits e
  late := h.late
  begun := h.first
  key key hk := by
    have hnewest : newestKey w.received = some key := by
      have hfits := h.stage
      rwa [hk] at hfits
    refine ⟨?_, hnewest⟩
    rw [h.fifo]
    exact List.mem_append_left _ (mem_of_newestKey hnewest)

end World

end Terminal

end Chip8
