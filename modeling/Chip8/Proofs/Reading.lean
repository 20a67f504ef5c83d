import Chip8.Proofs.Channels
import Mathlib.Data.List.Basic

/-! # Reading to the end

What a reader makes of its events. It passes on the keys among them, up to the first event that ends
the reading, and the message of that event is its last. Where nobody listens it ends with the first
message it has.

The reader and the receiver of its messages take their steps in any order. What the reader does
depends on the receiver only in whether there is one, and the number of steps that it takes is
bounded by the number of its events. -/

namespace Chip8.Terminal

/-! ## Events -/

theorem keyOf?_eq_some_iff {c : Char} {k : UInt8} :
    keyOf? c = some k ↔ layout[k.toNat]? = some c := by
  have hlayout : ∀ i : Fin 16, layout.idxOf? layout[i] = some i.val := by decide
  constructor
  · intro h
    obtain ⟨i, hi, rfl⟩ := Option.map_eq_some_iff.1 h
    obtain ⟨hlt, he, -⟩ := List.idxOf?_eq_some_iff.1 hi
    have hi16 : i < 16 := hlt
    rw [UInt8.toNat_ofNat_of_lt' (Nat.lt_trans hi16 (by decide)), List.getElem?_eq_getElem hlt, he]
  · intro h
    obtain ⟨hlt, rfl⟩ := List.getElem?_eq_some_iff.1 h
    have hindex : layout.idxOf? layout[k.toNat] = some k.toNat := hlayout ⟨k.toNat, hlt⟩
    rw [keyOf?, hindex, Option.map_some, UInt8.ofNat_toNat]

namespace Event

/-- The key that a character stands for, whatever its case and its modifiers. -/
def key? : Event → Option UInt8
  | .char c _ => keyOf? c.toLower
  | _ => none

/-- An event that ends the reading, and its message. -/
inductive Ends : Event → Message → Prop
  | escape : Ends (.key .escape) .quit
  /-- The letter in lower case alone. -/
  | interrupt {mods : Modifiers} : mods.ctrl = true → Ends (.char 'c' mods) .quit
  | failure {d : DeviceError} : Ends (.failure d) (.failed d)

variable {e : Event} {m : Message}

theorem key?_eq_some_iff {k : UInt8} :
    e.key? = some k ↔ ∃ c mods, e = .char c mods ∧ layout[k.toNat]? = some c.toLower := by
  constructor
  · intro h
    cases e with
    | char c mods => exact ⟨c, mods, rfl, keyOf?_eq_some_iff.1 h⟩
    | key | resize | failure => cases h
  · rintro ⟨c, mods, rfl, h⟩
    exact keyOf?_eq_some_iff.2 h

theorem le_of_key? {k : UInt8} (h : e.key? = some k) : k ≤ 15 := by
  obtain ⟨c, mods, rfl, hc⟩ := key?_eq_some_iff.1 h
  obtain ⟨hlt, -⟩ := List.getElem?_eq_some_iff.1 hc
  exact UInt8.le_iff_toNat_le.2 (Nat.le_of_lt_succ hlt)

theorem Ends.message?_eq (h : e.Ends m) : e.message? = some m := by
  cases h with
  | escape | failure => rfl
  | interrupt hctrl => exact if_pos ⟨rfl, hctrl⟩

theorem Ends.isLast (h : e.Ends m) : m.isLast = true := by
  cases h <;> rfl

/-- All other events have no message but their key. -/
theorem message?_of_not_ends (h : ∀ m, ¬ e.Ends m) : e.message? = e.key?.map .key := by
  cases e with
  | char c mods =>
    refine if_neg ?_
    rintro ⟨rfl, hctrl⟩
    exact h .quit (.interrupt hctrl)
  | key k => cases k with
    | escape => exact absurd .escape (h .quit)
    | _ => rfl
  | resize => rfl
  | failure d => exact absurd .failure (h (.failed d))

/-- An event has a message because it ends the reading, or because it has a key. -/
theorem message?_cases (e : Event) : (∃ m, e.Ends m ∧ e.message? = some m) ∨
    (∀ m, ¬ e.Ends m) ∧ e.message? = e.key?.map .key := by
  by_cases h : ∃ m, e.Ends m
  · obtain ⟨m, hm⟩ := h
    exact .inl ⟨m, hm, hm.message?_eq⟩
  · rw [not_exists] at h
    exact .inr ⟨h, message?_of_not_ends h⟩

/-- What ends the reading is told from the message alone. -/
theorem ends_iff : e.Ends m ↔ e.message? = some m ∧ m.isLast = true := by
  constructor
  · intro h
    exact ⟨h.message?_eq, h.isLast⟩
  · rintro ⟨he, hlast⟩
    obtain ⟨m', hm', he'⟩ | ⟨-, he'⟩ := e.message?_cases
    · cases he.symm.trans he'
      exact hm'
    · obtain ⟨k, -, rfl⟩ := Option.map_eq_some_iff.1 (he'.symm.trans he)
      cases hlast

/-- The reader ends after this event, if it is `alone` or not. -/
def stops (alone : Bool) (e : Event) : Bool := e.message?.any fun m ↦ m.isLast || alone

/-- An event that does not stop the reader has no message, or a key for somebody who listens. -/
theorem cases_of_stops_eq_false {alone : Bool} (h : e.stops alone = false) :
    (e.message? = none ∧ e.key? = none) ∨
      ∃ k, e.message? = some (.key k) ∧ e.key? = some k ∧ alone = false := by
  obtain ⟨m, hm, he⟩ | ⟨-, he⟩ := e.message?_cases
  · rw [stops, he, Option.any_some, hm.isLast, Bool.true_or] at h
    cases h
  · cases hk : e.key? with
    | none => exact .inl ⟨by rw [he, hk]; rfl, rfl⟩
    | some k =>
      rw [hk] at he
      rw [stops, he] at h
      exact .inr ⟨k, he, rfl, h⟩

/-- With somebody listening, exactly the events that end the reading stop the reader. With nobody
listening, keys do so, too. -/
theorem stops_iff {alone : Bool} :
    e.stops alone = true ↔ (∃ m, e.Ends m) ∨ alone = true ∧ e.key? ≠ none := by
  obtain ⟨m, hm, he⟩ | ⟨hnot, he⟩ := e.message?_cases
  · rw [stops, he, Option.any_some, hm.isLast, Bool.true_or]
    exact ⟨fun _ ↦ .inl ⟨m, hm⟩, fun _ ↦ rfl⟩
  · rw [stops, he]
    cases e.key? <;> simp [hnot, Message.isLast]

end Event

/-- The messages for the keys among events. -/
def keyMessages (events : List Event) : List Message := (events.filterMap Event.key?).map .key

/-! ## Where the reading ends -/

/-- Events up to the one after which the reader ends. -/
structure Cut (alone : Bool) (events : List Event) where
  earlier : List Event
  last : Event
  rest : List Event
  eq : events = earlier ++ last :: rest
  passes : ∀ e ∈ earlier, e.stops alone = false
  /-- The message of the last event. -/
  message : Message
  sends : last.message? = some message
  stops : (message.isLast || alone) = true

namespace Cut

variable {alone : Bool} {events : List Event}

/-- Events the last of which is a failure to read end somewhere. -/
theorem nonempty_of_failure (alone : Bool) {d : DeviceError}
    (h : events.getLast? = some (.failure d)) : Nonempty (Cut alone events) := by
  have hstops : (Event.failure d).stops alone = true := Bool.true_or alone
  have hfind : (events.find? (Event.stops alone)).isSome = true :=
    List.find?_isSome.2 ⟨_, List.mem_of_getLast? h, hstops⟩
  obtain ⟨last, hlast⟩ := Option.isSome_iff_exists.1 hfind
  obtain ⟨hp, earlier, rest, heq, hpasses⟩ := List.find?_eq_some_iff_append.1 hlast
  obtain ⟨message, hmessage, hends⟩ := (Option.any_eq_true _ _).1 hp
  exact ⟨⟨earlier, last, rest, heq, fun e he ↦ by simpa using hpasses e he, message, hmessage,
    hends⟩⟩

/-- All that is sent. A message for nobody is lost. -/
def sent (cut : Cut alone events) : List Message :=
  keyMessages cut.earlier ++ if alone then [] else [cut.message]

theorem stops_last (cut : Cut alone events) : cut.last.stops alone = true := by
  rw [Event.stops, cut.sends, Option.any_some]
  exact cut.stops

theorem message_eq_quit_iff (cut : Cut alone events) :
    cut.message = .quit ↔ cut.last.Ends .quit := by
  rw [Event.ends_iff, cut.sends, Option.some_inj]
  exact ⟨fun h ↦ ⟨h, rfl⟩, And.left⟩

/-- With somebody listening, the last message ends the reading. -/
theorem ends (cut : Cut false events) : cut.last.Ends cut.message :=
  Event.ends_iff.2 ⟨cut.sends, (Bool.or_false _).symm.trans cut.stops⟩

theorem not_ends (cut : Cut alone events) {e : Event} (he : e ∈ cut.earlier) (m : Message) :
    ¬ e.Ends m := by
  intro hm
  exact Bool.eq_false_iff.1 (cut.passes e he) (Event.stops_iff.2 (.inl ⟨m, hm⟩))

/-- With nobody listening, no key is passed over. -/
theorem key?_eq_none (cut : Cut true events) {e : Event} (he : e ∈ cut.earlier) :
    e.key? = none := by
  refine Decidable.not_not.1 fun hk ↦ ?_
  exact Bool.eq_false_iff.1 (cut.passes e he) (Event.stops_iff.2 (.inr ⟨rfl, hk⟩))

theorem sent_of_alone (cut : Cut true events) : cut.sent = [] := by
  rw [sent, keyMessages, List.filterMap_eq_nil_iff.2 fun e he ↦ cut.key?_eq_none he]
  rfl

end Cut

/-! ## Steps of the reader -/

namespace Reader

/-- The most steps that a reader has left, once it has an event for each of its reads. -/
def stepsLeft (r : Reader) : Nat :=
  match r.phase with
  | .reading => 3 * r.unread.length + 2
  | .stopping => 3 * r.unread.length + 4
  | .sending _ => 3 * r.unread.length + 3
  | .closing => 1
  | .ended => 0

theorem stepsLeft_react (e : Event) (rest : List Event) :
    stepsLeft ⟨rest, react e⟩ ≤ 3 * rest.length + 4 := by
  unfold react
  split
  · exact Nat.add_le_add_left (by decide) _
  · exact Nat.le_refl _
  · exact Nat.add_le_add_left (by decide) _

theorem stepsLeft_afterSending (m : Message) (c : Channel) (rest : List Event) :
    stepsLeft ⟨rest, afterSending m c⟩ ≤ 3 * rest.length + 2 := by
  unfold afterSending
  split
  · exact Nat.le_add_left 1 (3 * rest.length + 1)
  · exact Nat.le_refl _

end Reader

section

variable {alone : Bool} {events : List Event} {cut : Cut alone events}

/-- How far a reader has come: what it has not read, its phase, the stop flag, whether it has let go
of the channel, and what it has sent. -/
inductive Progress (cut : Cut alone events) : Reader → Bool → Bool → List Message → Prop
  | reading {done todo : List Event} : cut.earlier = done ++ todo →
      Progress cut ⟨todo ++ cut.last :: cut.rest, .reading⟩ false false (keyMessages done)
  /-- A key is sent only if somebody listens, or else it is the last message. -/
  | passing {done todo : List Event} {sent : List Message} {k : UInt8} : alone = false →
      cut.earlier = done ++ todo → keyMessages done = sent ++ [.key k] →
      Progress cut ⟨todo ++ cut.last :: cut.rest, .sending (.key k)⟩ false false sent
  | stopping : cut.message = .quit →
      Progress cut ⟨cut.rest, .stopping⟩ false false (keyMessages cut.earlier)
  /-- To quit, the flag goes up before the message is sent. -/
  | sending : Progress cut ⟨cut.rest, .sending cut.message⟩ (cut.message = .quit) false
      (keyMessages cut.earlier)
  | closing : Progress cut ⟨cut.rest, .closing⟩ (cut.message = .quit) false cut.sent
  | ended : Progress cut ⟨cut.rest, .ended⟩ (cut.message = .quit) true cut.sent

namespace Progress

variable {r : Reader} {l : Link} {sent : List Message}

/-- The last event leads to the message that is sent last. -/
theorem react_last (cut : Cut alone events) :
    Progress cut ⟨cut.rest, Reader.react cut.last⟩ false false (keyMessages cut.earlier) := by
  unfold Reader.react
  rw [cut.sends]
  by_cases hquit : cut.message = .quit
  · rw [hquit]
    exact .stopping hquit
  · have hsending : Progress cut _ _ _ _ := .sending
    rw [decide_eq_false hquit] at hsending
    cases hm : cut.message with
    | quit => exact absurd hm hquit
    | key | failed =>
      rw [hm] at hsending
      exact hsending

/-- An earlier event is passed over, or its key is passed on. -/
theorem react_earlier {e : Event} {done todo : List Event} (h : cut.earlier = done ++ e :: todo) :
    Progress cut ⟨todo ++ cut.last :: cut.rest, Reader.react e⟩ false false (keyMessages done) := by
  have hpasses : e.stops alone = false := cut.passes e (by simp [h])
  have hearlier : cut.earlier = (done ++ [e]) ++ todo := by simp [h]
  unfold Reader.react
  obtain ⟨hm, hk⟩ | ⟨k, hm, hk, halone⟩ := Event.cases_of_stops_eq_false hpasses
  · have hdone : keyMessages done = keyMessages (done ++ [e]) := by
      simp [keyMessages, hk]
    rw [hm, hdone]
    exact .reading hearlier
  · rw [hm]
    refine .passing halone hearlier ?_
    simp [keyMessages, hk]

/-- Each step of the reader leads on. -/
theorem step (ha : l.channel.abandoned = alone)
    (h : Progress cut r l.stopped l.channel.closed sent) :
    Progress cut (Reader.step (r, l)).1 (Reader.step (r, l)).2.stopped
      (Reader.step (r, l)).2.channel.closed (sent ++ r.outgoing l.channel) := by
  obtain ⟨stopped, queue, closed, abandoned⟩ := l
  obtain rfl : abandoned = alone := ha
  cases h with
  | @reading done todo hearlier =>
    simp only [Reader.outgoing, List.append_nil]
    cases todo with
    | nil =>
      rw [List.append_nil] at hearlier
      exact hearlier ▸ react_last cut
    | cons e todo => exact react_earlier hearlier
  | passing halone hearlier hsent =>
    subst halone
    have hreading := Progress.reading hearlier
    rw [hsent] at hreading
    exact hreading
  | stopping hquit =>
    simp only [Reader.outgoing, List.append_nil]
    have hsending : Progress cut _ _ _ _ := .sending
    rw [decide_eq_true hquit, hquit] at hsending
    exact hsending
  | sending =>
    have hphase (c : Channel) (hc : c.abandoned = abandoned) :
        Reader.afterSending cut.message c = .closing := by
      rw [Reader.afterSending, hc]
      exact if_pos cut.stops
    have hsent : keyMessages cut.earlier ++
        (if Channel.accepts ⟨queue, false, abandoned⟩ then [cut.message] else []) = cut.sent := by
      cases abandoned <;> rfl
    simp only [Reader.step, Reader.outgoing, hphase, Channel.send_eq, hsent]
    exact .closing
  | closing =>
    simp only [Reader.outgoing, List.append_nil]
    exact .ended
  | ended =>
    simp only [Reader.outgoing, List.append_nil]
    exact .ended

/-- Nothing is left to do for a reader that has no steps left. -/
theorem eq_of_stepsLeft_eq_zero {stopped closed : Bool} (h : Progress cut r stopped closed sent)
    (h0 : r.stepsLeft = 0) :
    r = ⟨cut.rest, .ended⟩ ∧ stopped = decide (cut.message = .quit) ∧ sent = cut.sent := by
  cases h with
  | ended => exact ⟨rfl, rfl, rfl⟩
  | reading | passing | stopping | sending | closing => cases h0

/-- A reader that has events left before the last one comes nearer to its end. -/
theorem stepsLeft_step {stopped closed : Bool} (h : Progress cut r stopped closed sent) (l : Link) :
    (Reader.step (r, l)).1.stepsLeft ≤ r.stepsLeft - 1 := by
  cases h with
  | @reading done todo =>
    cases todo with
    | nil => exact Reader.stepsLeft_react cut.last cut.rest
    | cons e todo => exact Reader.stepsLeft_react e _
  | passing | sending => exact Reader.stepsLeft_afterSending _ _ _
  | stopping | closing | ended => exact Nat.le_refl _

end Progress

end

/-! ## Two parties -/

/-- Whose step is the next: that of the reader, or that of somebody who takes messages out of its
channel. -/
inductive Party
  | reader
  | receiver
deriving DecidableEq

/-- A reader, and the messages that have gone into its channel and out of it, oldest first. -/
structure Exchange where
  reader : Reader
  link : Link
  sent : List Message
  received : List Message

namespace Exchange

/-- A reader that has not read. It is `alone` where the receiver is gone. -/
def start (events : List Event) (alone : Bool) : Exchange where
  reader := { unread := events }
  link := { channel := { abandoned := alone } }
  sent := []
  received := []

def step (s : Exchange) : Party → Exchange
  | .reader =>
    let (reader, link) := Reader.step (s.reader, s.link)
    { s with reader, link, sent := s.sent ++ s.reader.outgoing s.link.channel }
  | .receiver =>
    match s.link.channel.tryReceive with
    | (.message m, channel) =>
      { s with link := { s.link with channel }, received := s.received ++ [m] }
    | (.empty, _) | (.disconnected, _) => s

def play (s : Exchange) (turns : List Party) : Exchange := turns.foldl step s

variable {alone : Bool} {events : List Event} {cut : Cut alone events} {s : Exchange}

/-- What holds whatever the order of steps. -/
structure Inv (cut : Cut alone events) (s : Exchange) : Prop where
  progress : Progress cut s.reader s.link.stopped s.link.channel.closed s.sent
  abandoned : s.link.channel.abandoned = alone
  fifo : s.sent = s.received ++ s.link.channel.queue

theorem start_inv (cut : Cut alone events) : Inv cut (start events alone) where
  progress := by
    have hreading := Progress.reading (List.nil_append cut.earlier).symm
    rw [← cut.eq] at hreading
    exact hreading
  abandoned := rfl
  fifo := rfl

theorem Inv.step (h : Inv cut s) (party : Party) : Inv cut (s.step party) := by
  cases party with
  | reader =>
    constructor
    case progress => exact h.progress.step h.abandoned
    case abandoned => exact (Reader.abandoned_step s.reader s.link).trans h.abandoned
    case fifo =>
      show s.sent ++ _ = s.received ++ (Reader.step (s.reader, s.link)).2.channel.queue
      rw [Reader.queue_step, ← List.append_assoc, ← h.fifo]
  | receiver =>
    have hfifo := h.fifo
    unfold Exchange.step Channel.tryReceive
    cases hq : s.link.channel.queue with
    | nil => cases s.link.channel.closed <;> exact h
    | cons m rest =>
      rw [hq] at hfifo
      exact ⟨h.progress, h.abandoned, by simp [hfifo]⟩

/-- The receiver leaves the reader alone. -/
theorem reader_step_receiver (s : Exchange) : (s.step .receiver).reader = s.reader := by
  unfold Exchange.step Channel.tryReceive
  cases s.link.channel.queue with
  | nil => cases s.link.channel.closed <;> rfl
  | cons => rfl

theorem Inv.play {turns : List Party} (h : Inv cut s) : Inv cut (s.play turns) := by
  induction turns generalizing s with
  | nil => exact h
  | cons party turns ih => exact ih (h.step party)

/-- Nobody but the reader makes it work, and it works whenever it has its turn. -/
theorem Inv.stepsLeft_play {turns : List Party} (h : Inv cut s) :
    (s.play turns).reader.stepsLeft ≤ s.reader.stepsLeft - turns.count .reader := by
  induction turns generalizing s with
  | nil => exact Nat.le_refl _
  | cons party turns ih =>
    have hplay := ih (h.step party)
    cases party with
    | reader =>
      have hstep : (s.step .reader).reader.stepsLeft ≤ s.reader.stepsLeft - 1 :=
        h.progress.stepsLeft_step s.link
      rw [List.count_cons_self]
      exact Nat.le_trans hplay (by omega)
    | receiver =>
      rw [reader_step_receiver] at hplay
      rwa [List.count_cons_of_ne (by decide)]

/-- A reader that has ended after the event `last`, with the events that it has left and the
messages that it has sent. -/
structure HasEnded (s : Exchange) (last : Event) (rest : List Event) (sent : List Message) :
    Prop where
  reader : s.reader = ⟨rest, .ended⟩
  sent_eq : s.sent = sent
  /-- Messages are received in the order in which they were sent, and none is lost. -/
  fifo : s.sent = s.received ++ s.link.channel.queue
  /-- The flag is raised to quit, and for nothing else. -/
  stopped : s.link.stopped = true ↔ last.Ends .quit

theorem hasEnded_play (cut : Cut alone events) {turns : List Party}
    (h : 3 * events.length + 3 ≤ turns.count .reader) :
    HasEnded ((start events alone).play turns) cut.last cut.rest cut.sent := by
  have hinv : Inv cut ((start events alone).play turns) := (start_inv cut).play
  have hleft : ((start events alone).play turns).reader.stepsLeft ≤
      3 * events.length + 2 - turns.count .reader := (start_inv cut).stepsLeft_play
  obtain ⟨hreader, hstopped, hsent⟩ := hinv.progress.eq_of_stepsLeft_eq_zero (by omega)
  constructor
  case reader => exact hreader
  case sent_eq => exact hsent
  case fifo => exact hinv.fifo
  case stopped =>
    rw [hstopped, decide_eq_true_iff]
    exact cut.message_eq_quit_iff

end Exchange

/-! ## What the reader makes of its events -/

/-- What is made of events with enough steps of the reader, whenever its receiver takes
its steps. -/
structure Translates (events : List Event) : Prop where
  /-- A key is the place of the character in the layout. -/
  key_iff : ∀ e ∈ events, ∀ k, e.key? = some k ↔
    k ≤ 15 ∧ ∃ c mods, e = .char c mods ∧ layout[k.toNat]? = some c.toLower
  /-- Somebody who listens gets the keys before the first event that ends the reading, and then its
  message. -/
  listened : ∃ earlier last rest final, events = earlier ++ last :: rest ∧
    (∀ e ∈ earlier, ∀ m, ¬ e.Ends m) ∧ last.Ends final ∧
    ∀ turns, 3 * events.length + 3 ≤ turns.count .reader →
      Exchange.HasEnded ((Exchange.start events false).play turns) last rest
        (keyMessages earlier ++ [final])
  /-- With nobody listening a key ends the reading, too, and nothing is sent. -/
  unheard : ∃ earlier last rest, events = earlier ++ last :: rest ∧
    (∀ e ∈ earlier, e.key? = none ∧ ∀ m, ¬ e.Ends m) ∧
    (last.key? ≠ none ∨ ∃ m, last.Ends m) ∧
    ∀ turns, 3 * events.length + 3 ≤ turns.count .reader →
      Exchange.HasEnded ((Exchange.start events true).play turns) last rest []

theorem reader_translates {events : List Event} (h : ∃ d, events.getLast? = some (.failure d)) :
    Translates events := by
  obtain ⟨d, hlast⟩ := h
  constructor
  case key_iff =>
    intro e _ k
    exact ⟨fun hk ↦ ⟨Event.le_of_key? hk, Event.key?_eq_some_iff.1 hk⟩,
      fun hk ↦ Event.key?_eq_some_iff.2 hk.2⟩
  case listened =>
    obtain ⟨cut⟩ := Cut.nonempty_of_failure false hlast
    refine ⟨cut.earlier, cut.last, cut.rest, cut.message, cut.eq, ?_, cut.ends, ?_⟩
    · intro e he m
      exact cut.not_ends he m
    · intro turns hturns
      exact Exchange.hasEnded_play cut hturns
  case unheard =>
    obtain ⟨cut⟩ := Cut.nonempty_of_failure true hlast
    have hstop : cut.last.key? ≠ none ∨ ∃ m, cut.last.Ends m :=
      (Event.stops_iff.1 cut.stops_last).symm.imp_left And.right
    refine ⟨cut.earlier, cut.last, cut.rest, cut.eq, ?_, hstop, ?_⟩
    · intro e he
      exact ⟨cut.key?_eq_none he, cut.not_ends he⟩
    · intro turns hturns
      rw [← cut.sent_of_alone]
      exact Exchange.hasEnded_play cut hturns

/-- Two keys, one of them the capital of the letter that quits, two events of no use, and then
control and `c`. A key and a failure are behind it. -/
def interrupted : List Event :=
  [.char 'Q' {}, .resize, .char 'C' { ctrl := true }, .char 'é' {}, .char 'c' { ctrl := true },
    .char 'x' {}, .failure ⟨"gone"⟩]

/-- A receiver that looks after every other step of the reader. -/
def alternating : List Party := (List.replicate 12 [.reader, .reader, .receiver]).flatten

theorem reader_translates_interrupted :
    (∃ d, interrupted.getLast? = some (.failure d)) ∧ Translates interrupted ∧
      3 * interrupted.length + 3 ≤ alternating.count .reader ∧
      ((Exchange.start interrupted false).play alternating).sent = [.key 4, .key 11, .quit] ∧
      ((Exchange.start interrupted false).play alternating).link.stopped = true ∧
      ((Exchange.start interrupted true).play alternating).reader.unread = interrupted.tail := by
  have hlast : ∃ d, interrupted.getLast? = some (.failure d) := ⟨_, rfl⟩
  exact ⟨hlast, reader_translates hlast, by decide, by decide, by decide, by decide⟩

end Chip8.Terminal
