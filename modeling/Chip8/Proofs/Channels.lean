import Chip8.Terminal.Keypad
import Chip8.Terminal.Reader

/-! # The two ends of the channel

What the reader of the terminal does in one step, and what the keypad finds in one look. A reader
whose reading does not fail raises the stop flag before it sends the message that quits, and lets go
of the channel later still, so the flag is up wherever the keypad has a reason to quit. -/

namespace Chip8.Terminal

/-- Sending changes the queue alone. -/
theorem Channel.send_eq (c : Channel) (m : Message) :
    c.send m = { c with queue := c.queue ++ if c.accepts then [m] else [] } := by
  unfold send
  split
  · rfl
  · rw [List.append_nil]

/-! ## The reader -/

/-- The first event that ends the reading, if there is one, asks to quit. -/
def QuitsFirst (events : List Event) : Prop :=
  ∀ m, (events.filterMap Event.message?).find? Message.isLast = some m → m = .quit

theorem QuitsFirst.tail {e : Event} {rest : List Event} (h : QuitsFirst (e :: rest))
    (he : ∀ m, e.message? = some m → m.isLast = false) : QuitsFirst rest := by
  intro m hm
  refine h m ?_
  cases hmessage : e.message? with
  | none => rwa [List.filterMap_cons_none hmessage]
  | some m' =>
    rwa [List.filterMap_cons_some hmessage, List.find?_cons_of_neg (by simp [he m' hmessage])]

/-- An event that fails to be read is not the next one. -/
theorem QuitsFirst.message?_ne_failed {e : Event} {rest : List Event} (h : QuitsFirst (e :: rest))
    (d : DeviceError) : e.message? ≠ some (.failed d) := by
  intro he
  have hquit := h (.failed d) (by rw [List.filterMap_cons_some he]; rfl)
  cases hquit

/-- The message that the next step of the reader puts into the channel. -/
def Reader.outgoing (r : Reader) (c : Channel) : List Message :=
  match r.phase with
  | .sending m => if c.accepts then [m] else []
  | _ => []

/-- What the phase of a reader tells of the stop flag and of the events that are left. -/
def Reader.Fits (r : Reader) (stopped : Bool) : Prop :=
  match r.phase with
  | .reading | .sending (.key _) => QuitsFirst r.unread
  | .stopping => True
  | .sending .quit | .closing | .ended => stopped = true
  | .sending (.failed _) => False

/-- A reader at work that has sent the messages in `sent`. -/
structure Reader.Underway (r : Reader) (l : Link) (sent : List Message) : Prop where
  listened : l.channel.abandoned = false
  fits : r.Fits l.stopped
  /-- The reader lets go of the channel only to quit. -/
  closed : l.channel.closed = true → l.stopped = true
  /-- The flag goes up before the message that quits is sent. -/
  sent : ∀ m ∈ sent, (∃ key, m = .key key) ∨ m = .quit ∧ l.stopped = true

namespace Reader

variable {r : Reader} {l : Link} {sent : List Message}

theorem queue_step (r : Reader) (l : Link) :
    (step (r, l)).2.channel.queue = l.channel.queue ++ r.outgoing l.channel := by
  obtain ⟨unread, phase⟩ := r
  cases phase with
  | sending m =>
    show (l.channel.send m).queue = _
    rw [Channel.send_eq]
    rfl
  | reading => cases unread <;> exact (List.append_nil _).symm
  | stopping | closing | ended => exact (List.append_nil _).symm

/-- The flag stays up. -/
theorem stopped_step (r : Reader) (h : l.stopped = true) : (step (r, l)).2.stopped = true := by
  obtain ⟨unread, phase⟩ := r
  cases phase with
  | stopping => rfl
  | reading => cases unread <;> exact h
  | sending | closing | ended => exact h

theorem abandoned_step (r : Reader) (l : Link) :
    (step (r, l)).2.channel.abandoned = l.channel.abandoned := by
  obtain ⟨unread, phase⟩ := r
  cases phase with
  | sending m =>
    show (l.channel.send m).abandoned = l.channel.abandoned
    rw [Channel.send_eq]
  | reading => cases unread <;> rfl
  | stopping | closing | ended => rfl

theorem Fits.react {e : Event} {rest : List Event} {stopped : Bool} (h : QuitsFirst (e :: rest)) :
    Fits ⟨rest, react e⟩ stopped := by
  unfold Reader.react
  cases he : e.message? with
  | none => exact h.tail (by simp [he])
  | some m => cases m with
    | quit => trivial
    | key => exact h.tail (by simp [he, Message.isLast])
    | failed d => exact absurd he (h.message?_ne_failed d)

theorem Fits.step (hl : l.channel.abandoned = false) (h : r.Fits l.stopped) :
    (step (r, l)).1.Fits (step (r, l)).2.stopped := by
  obtain ⟨unread, phase⟩ := r
  cases phase with
  | reading => cases unread with
    | nil => exact h
    | cons e rest => exact .react h
  | stopping => rfl
  | sending m =>
    show Fits ⟨unread, afterSending m l.channel⟩ l.stopped
    cases m with
    | key =>
      rw [afterSending, hl]
      exact h
    | quit => exact h
    | failed => exact h.elim
  | closing | ended => exact h

theorem phase_of_mem_outgoing {c : Channel} {m : Message} (h : m ∈ r.outgoing c) :
    r.phase = .sending m := by
  unfold outgoing at h
  split at h
  · next hp =>
    split at h
    · rw [hp, List.mem_singleton.1 h]
    · cases h
  · cases h

theorem Fits.sending {stopped : Bool} {m : Message} (h : r.Fits stopped)
    (hp : r.phase = .sending m) : (∃ key, m = .key key) ∨ m = .quit ∧ stopped = true := by
  rw [Fits, hp] at h
  cases m with
  | key key => exact .inl ⟨key, rfl⟩
  | quit => exact .inr ⟨rfl, h⟩
  | failed => exact h.elim

theorem closed_step (h : r.Fits l.stopped) (hc : (step (r, l)).2.channel.closed = true) :
    l.channel.closed = true ∨ l.stopped = true := by
  obtain ⟨unread, phase⟩ := r
  cases phase with
  | closing => exact .inr h
  | sending m =>
    change (l.channel.send m).closed = true at hc
    rw [Channel.send_eq] at hc
    exact .inl hc
  | reading => cases unread <;> exact .inl hc
  | stopping | ended => exact .inl hc

/-- What holds of a reader at work holds after its next step. -/
theorem Underway.step (h : Underway r l sent) :
    Underway (step (r, l)).1 (step (r, l)).2 (sent ++ r.outgoing l.channel) where
  listened := (abandoned_step r l).trans h.listened
  fits := h.fits.step h.listened
  closed hc := by
    obtain hc | hs := closed_step h.fits hc
    · exact stopped_step r (h.closed hc)
    · exact stopped_step r hs
  sent m hm := by
    have hold : (∃ key, m = .key key) ∨ m = .quit ∧ l.stopped = true := by
      obtain hm | hm := List.mem_append.1 hm
      · exact h.sent m hm
      · exact h.fits.sending (phase_of_mem_outgoing hm)
    exact hold.imp_right fun ⟨he, hs⟩ ↦ ⟨he, stopped_step r hs⟩

end Reader

/-! ## Messages to come -/

/-- The messages that a reader has in hand. -/
def ReaderPhase.inHand : ReaderPhase → Nat
  | .stopping | .sending _ => 1
  | _ => 0

theorem ReaderPhase.inHand_le (p : ReaderPhase) : p.inHand ≤ 1 := by
  cases p <;> first | exact Nat.le_refl 1 | exact Nat.zero_le 1

theorem Reader.inHand_afterSending (m : Message) (c : Channel) : (afterSending m c).inHand = 0 := by
  unfold afterSending
  split <;> rfl

/-- The most messages that can still be received: those that wait, and those that may be sent. -/
def Reader.pending (r : Reader) (l : Link) : Nat :=
  l.channel.queue.length + r.unread.length + r.phase.inHand

theorem Reader.pending_step (r : Reader) (l : Link) :
    pending (step (r, l)).1 (step (r, l)).2 ≤ pending r l := by
  obtain ⟨unread, phase⟩ := r
  cases phase with
  | reading => cases unread with
    | nil => exact Nat.le_refl _
    | cons e rest =>
      have hhand := (react e).inHand_le
      show l.channel.queue.length + rest.length + (react e).inHand ≤
        l.channel.queue.length + (rest.length + 1)
      omega
  | sending m =>
    show (l.channel.send m).queue.length + unread.length + (afterSending m l.channel).inHand ≤
      l.channel.queue.length + unread.length + 1
    have hsent : (if l.channel.accepts then [m] else []).length ≤ 1 := by
      split
      · exact Nat.le_refl 1
      · exact Nat.zero_le 1
    rw [inHand_afterSending, Channel.send_eq, List.length_append]
    omega
  | stopping | closing | ended => exact Nat.le_refl _

theorem Reader.pending_steps (n : Nat) (s : Reader × Link) :
    pending (steps n s).1 (steps n s).2 ≤ pending s.1 s.2 := by
  induction n generalizing s with
  | zero => exact Nat.le_refl _
  | succ n ih => exact Nat.le_trans (ih (step s)) (pending_step s.1 s.2)

/-! ## Looks at the channel -/

namespace TerminalKeypad

variable {now : Nat} {k : TerminalKeypad}

/-- A look takes a message out of the channel, or finds that none waits. -/
theorem look_cases (now : Nat) (k : TerminalKeypad) :
    (∃ key rest, k.channel.queue = .key key :: rest ∧
      k.look now = .again ⟨{ k.channel with queue := rest }, k.latch.press key now⟩) ∨
    (∃ rest, k.channel.queue = .quit :: rest ∧
      k.look now = .answer (.error .quit) { k with channel := { k.channel with queue := rest } }) ∨
    (∃ d rest, k.channel.queue = .failed d :: rest ∧
      k.look now =
        .answer (.error (.device d)) { k with channel := { k.channel with queue := rest } }) ∨
    (k.channel.queue = [] ∧ k.channel.closed = true ∧ k.look now = .answer (.error .quit) k) ∨
    (k.channel.queue = [] ∧ k.look now = .answer (k.latched now).1 (k.latched now).2) := by
  unfold look Channel.tryReceive
  cases hq : k.channel.queue with
  | cons m rest => cases m with
    | key key => exact .inl ⟨key, rest, rfl, rfl⟩
    | quit => exact .inr (.inl ⟨rest, rfl, rfl⟩)
    | failed d => exact .inr (.inr (.inl ⟨d, rest, rfl, rfl⟩))
  | nil => cases hc : k.channel.closed with
    | true => exact .inr (.inr (.inr (.inl ⟨rfl, rfl, rfl⟩)))
    | false => exact .inr (.inr (.inr (.inr ⟨rfl, rfl⟩)))

/-- With no message waiting, a query answers the key that is latched, or none. -/
theorem latched_cases (now : Nat) (k : TerminalKeypad) :
    (∃ key pressed, k.latch.held = some (key, pressed) ∧ k.latched now = (.ok key, k)) ∨
    ∃ latch, (latch = k.latch ∨ latch.held = none) ∧
      k.latched now = (.error .noKey, { k with latch }) := by
  unfold latched KeyLatch.current
  cases hh : k.latch.held with
  | none => exact .inr ⟨_, .inl rfl, rfl⟩
  | some held =>
    obtain ⟨key, pressed⟩ := held
    by_cases hlt : now - pressed < k.latch.hold
    · simp only [if_pos hlt]
      exact .inl ⟨key, pressed, rfl, rfl⟩
    · simp only [if_neg hlt]
      exact .inr ⟨_, .inr rfl, rfl⟩

end TerminalKeypad

def Message.key? : Message → Option UInt8
  | .key k => some k
  | _ => none

/-- The newest key among messages. -/
def newestKey (messages : List Message) : Option UInt8 :=
  (messages.filterMap Message.key?).getLast?

@[simp] theorem newestKey_append_key (messages : List Message) (key : UInt8) :
    newestKey (messages ++ [.key key]) = some key := by
  simp [newestKey, Message.key?]

@[simp] theorem newestKey_append_quit (messages : List Message) :
    newestKey (messages ++ [.quit]) = newestKey messages := by
  simp [newestKey, Message.key?]

theorem mem_of_newestKey {messages : List Message} {key : UInt8}
    (h : newestKey messages = some key) : .key key ∈ messages := by
  obtain ⟨m, hm, hkey⟩ := List.mem_filterMap.1 (List.mem_of_getLast? h)
  cases m with
  | key k =>
    cases hkey
    exact hm
  | quit | failed => cases hkey

end Chip8.Terminal
