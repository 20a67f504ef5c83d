import Chip8.Proofs.Reading
import Mathlib.Data.List.Forall2

/-! # The case of letters

Keys do not depend on the case of a letter, but the chord that quits does: with control, `c` quits
and `C` is a key. So two readers whose events differ in nothing but case do the same if and only if
no event up to the end of the reading is the chord for one of them and the key for the other. -/

namespace Chip8.Terminal

namespace Event

/-- Events that differ at most in the case of an ASCII letter. -/
inductive Recased : Event → Event → Prop
  | refl (e : Event) : Recased e e
  | letter {c d : Char} {mods : Modifiers} : c.toLower = d.toLower →
      Recased (.char c mods) (.char d mods)

variable {e e' : Event}

theorem ends_char_iff {c : Char} {mods : Modifiers} {m : Message} :
    (char c mods).Ends m ↔ m = .quit ∧ c = 'c' ∧ mods.ctrl = true := by
  constructor
  · rintro (_ | hctrl)
    exact ⟨rfl, rfl, hctrl⟩
  · rintro ⟨rfl, rfl, hctrl⟩
    exact .interrupt hctrl

theorem Recased.key?_eq (h : Recased e e') : e.key? = e'.key? := by
  cases h with
  | refl => rfl
  | letter hlower => exact congrArg keyOf? hlower

/-- The messages for two letters are the same but where one of them quits. -/
theorem Recased.message?_eq_iff (h : Recased e e') :
    e.message? = e'.message? ↔ (e.Ends .quit ↔ e'.Ends .quit) := by
  constructor
  · intro he
    rw [ends_iff, ends_iff, he]
  · intro hquit
    have hkey := h.key?_eq
    cases h with
    | refl => rfl
    | @letter c d mods =>
      by_cases hc : (char c mods).Ends .quit
      · rw [hc.message?_eq, (hquit.1 hc).message?_eq]
      · have hd := mt hquit.2 hc
        rw [message?_of_not_ends, message?_of_not_ends, hkey]
        · rintro m hm
          obtain ⟨rfl, -⟩ := ends_char_iff.1 hm
          exact hd hm
        · rintro m hm
          obtain ⟨rfl, -⟩ := ends_char_iff.1 hm
          exact hc hm

/-- The letter that quits with control is a key in the other case. -/
theorem Recased.message?_of_not_ends (h : Recased e e') (he : e.Ends .quit)
    (he' : ¬ e'.Ends .quit) :
    e'.message? = some (.key 11) := by
  cases h with
  | refl => exact absurd he he'
  | @letter c d mods hlower =>
    obtain ⟨-, rfl, hctrl⟩ := ends_char_iff.1 he
    have hd : ¬ (d = 'c' ∧ mods.ctrl = true) := fun hd ↦ he' (ends_char_iff.2 ⟨rfl, hd⟩)
    rw [message?, if_neg hd, ← hlower]
    rfl

theorem Recased.symm (h : Recased e e') : Recased e' e := by
  cases h with
  | refl => exact .refl e
  | letter hlower => exact .letter hlower.symm

end Event

open Event (Recased)

/-- Event by event, both lists ask to quit or none of them does, until the reading of the first one
ends. -/
def QuitTogether (alone : Bool) : List Event → List Event → Prop
  | e :: rest, e' :: rest' =>
    (e.Ends .quit ↔ e'.Ends .quit) ∧ (e.stops alone = false → QuitTogether alone rest rest')
  | _, _ => True

/-- A reader in this phase comes back to its events. -/
def ReaderPhase.goesOn (alone : Bool) : ReaderPhase → Bool
  | .reading => true
  | .sending m => !(m.isLast || alone)
  | .stopping | .closing | .ended => false

theorem goesOn_react (alone : Bool) (e : Event) :
    (Reader.react e).goesOn alone = !e.stops alone := by
  unfold Reader.react Event.stops
  cases e.message? with
  | none => rfl
  | some m => cases m <;> rfl

theorem goesOn_afterSending (m : Message) (c : Channel) :
    (Reader.afterSending m c).goesOn c.abandoned = (ReaderPhase.sending m).goesOn c.abandoned := by
  show ReaderPhase.goesOn c.abandoned (if m.isLast || c.abandoned then .closing else .reading) =
    !(m.isLast || c.abandoned)
  cases m.isLast || c.abandoned <;> rfl

namespace Exchange

/-- What can be seen of two exchanges is the same. -/
structure Alike (s s' : Exchange) : Prop where
  unread : s.reader.unread.length = s'.reader.unread.length
  /-- The stop flag and the channel. -/
  link : s.link = s'.link
  sent : s.sent = s'.sent
  received : s.received = s'.received

/-! ## Readers that do the same -/

/-- Two exchanges at the same point, with events left that differ in case. -/
structure InStep (alone : Bool) (s s' : Exchange) : Prop where
  recased : List.Forall₂ Recased s.reader.unread s'.reader.unread
  phase : s.reader.phase = s'.reader.phase
  link : s.link = s'.link
  sent : s.sent = s'.sent
  received : s.received = s'.received
  abandoned : s.link.channel.abandoned = alone
  quits : s.reader.phase.goesOn alone = true →
    QuitTogether alone s.reader.unread s'.reader.unread

variable {alone : Bool} {events events' : List Event} {s s' : Exchange}

theorem InStep.alike (h : InStep alone s s') : Alike s s' :=
  ⟨h.recased.length_eq, h.link, h.sent, h.received⟩

theorem start_inStep (h : List.Forall₂ Recased events events')
    (hquits : QuitTogether alone events events') :
    InStep alone (start events alone) (start events' alone) :=
  ⟨h, rfl, rfl, rfl, rfl, rfl, fun _ ↦ hquits⟩

theorem InStep.step (h : InStep alone s s') (party : Party) :
    InStep alone (s.step party) (s'.step party) := by
  obtain ⟨⟨unread, phase⟩, link, sent, received⟩ := s
  obtain ⟨⟨unread', phase'⟩, link', sent', received'⟩ := s'
  obtain ⟨hrecased, hphase, hlink, hsent, hreceived, habandoned, hquits⟩ := h
  dsimp only at hrecased hphase hlink hsent hreceived habandoned hquits
  subst hphase hlink hsent hreceived
  cases party with
  | receiver =>
    unfold Exchange.step Channel.tryReceive
    cases link.channel.queue with
    | nil => cases link.channel.closed <;> exact ⟨hrecased, rfl, rfl, rfl, rfl, habandoned, hquits⟩
    | cons => exact ⟨hrecased, rfl, rfl, rfl, rfl, habandoned, hquits⟩
  | reader =>
    have habandoned' := (Reader.abandoned_step ⟨unread, phase⟩ link).trans habandoned
    cases phase with
    | reading =>
      cases hrecased with
      | nil => exact ⟨.nil, rfl, rfl, rfl, rfl, habandoned, hquits⟩
      | @cons e e' rest rest' he hrest =>
        obtain ⟨hquit, hgoesOn⟩ := hquits rfl
        have hreact : Reader.react e = Reader.react e' := by
          rw [Reader.react, he.message?_eq_iff.2 hquit, ← Reader.react]
        refine ⟨hrest, hreact, rfl, rfl, rfl, habandoned', fun h ↦ hgoesOn ?_⟩
        change (Reader.react e).goesOn alone = true at h
        rwa [goesOn_react, Bool.not_eq_true'] at h
    | sending m =>
      refine ⟨hrecased, rfl, rfl, rfl, rfl, habandoned', fun h ↦ hquits ?_⟩
      rw [← habandoned] at h ⊢
      exact (goesOn_afterSending m link.channel).symm.trans h
    | stopping | closing | ended =>
      exact ⟨hrecased, rfl, rfl, rfl, rfl, habandoned', fun h ↦ absurd h Bool.false_ne_true⟩

theorem InStep.play (h : InStep alone s s') (turns : List Party) :
    InStep alone (s.play turns) (s'.play turns) := by
  induction turns generalizing s s' with
  | nil => exact h
  | cons party turns ih => exact ih (h.step party)

/-! ## Where they part -/

/-- A reader that has read an event which quits raises the flag at once. -/
theorem stopped_of_ends {e : Event} (he : e.Ends .quit) (rest : List Event) (link : Link)
    (sent received : List Message) :
    (play ⟨⟨e :: rest, .reading⟩, link, sent, received⟩
      [.reader, .reader]).link.stopped = true := by
  have hreact : Reader.react e = .stopping := by rw [Reader.react, he.message?_eq]
  show (Reader.step (⟨rest, Reader.react e⟩, link)).2.stopped = true
  rw [hreact]
  rfl

theorem stopped_of_key {e : Event} {k : UInt8} (he : e.message? = some (.key k)) (rest : List Event)
    (link : Link) (sent received : List Message) :
    (play ⟨⟨e :: rest, .reading⟩, link, sent, received⟩ [.reader, .reader]).link.stopped =
      link.stopped := by
  have hreact : Reader.react e = .sending (.key k) := by rw [Reader.react, he]
  show (Reader.step (⟨rest, Reader.react e⟩, link)).2.stopped = link.stopped
  rw [hreact]
  rfl

/-- Two turns of the reader tell an event that quits from one that does not. -/
theorem ends_of_alike {e e' : Event} (he : Recased e e') {rest rest' : List Event} {link : Link}
    {sent received : List Message} (hlink : link.stopped = false)
    (h : Alike (play ⟨⟨e :: rest, .reading⟩, link, sent, received⟩ [.reader, .reader])
      (play ⟨⟨e' :: rest', .reading⟩, link, sent, received⟩ [.reader, .reader]))
    (hquit : e.Ends .quit) : e'.Ends .quit := by
  by_contra hnot
  have hstopped := stopped_of_ends hquit rest link sent received
  rw [h.link, stopped_of_key (he.message?_of_not_ends hquit hnot), hlink] at hstopped
  cases hstopped

theorem Alike.symm (h : Alike s s') : Alike s' s :=
  ⟨h.unread.symm, h.link.symm, h.sent.symm, h.received.symm⟩

/-- Turns in which a reader passes over an event or passes on its key. -/
theorem exists_pass {e : Event} (he : e.stops alone = false) (link : Link)
    (habandoned : link.channel.abandoned = alone) (sent received : List Message) :
    ∃ turns link' sent', link'.stopped = link.stopped ∧ link'.channel.abandoned = alone ∧
      ∀ e' rest, e'.message? = e.message? →
        play ⟨⟨e' :: rest, .reading⟩, link, sent, received⟩ turns =
          ⟨⟨rest, .reading⟩, link', sent', received⟩ := by
  obtain ⟨hnone, -⟩ | ⟨k, hkey, -, rfl⟩ := Event.cases_of_stops_eq_false he
  · refine ⟨[.reader], link, sent, rfl, habandoned, fun e' rest he' ↦ ?_⟩
    have hreact : Reader.react e' = .reading := by rw [Reader.react, he', hnone]
    show Exchange.mk ⟨rest, Reader.react e'⟩ link (sent ++ []) received = _
    rw [hreact, List.append_nil]
  · refine ⟨[.reader, .reader], { link with channel := link.channel.send (.key k) },
      sent ++ if link.channel.accepts then [.key k] else [], rfl, ?_, fun e' rest he' ↦ ?_⟩
    · rw [Channel.send_eq, habandoned]
    · have hreact : Reader.react e' = .sending (.key k) := by rw [Reader.react, he', hkey]
      show Exchange.step
        (Exchange.mk ⟨rest, Reader.react e'⟩ link (sent ++ []) received) .reader = _
      rw [hreact, List.append_nil]
      show Exchange.mk ⟨rest, Reader.afterSending (.key k) link.channel⟩ _ _ _ = _
      rw [Reader.afterSending, habandoned]
      rfl

theorem quitTogether_of_alike (h : List.Forall₂ Recased events events') (link : Link)
    (sent received : List Message) (hstopped : link.stopped = false)
    (habandoned : link.channel.abandoned = alone)
    (halike : ∀ turns, Alike (play ⟨⟨events, .reading⟩, link, sent, received⟩ turns)
      (play ⟨⟨events', .reading⟩, link, sent, received⟩ turns)) :
    QuitTogether alone events events' := by
  induction h generalizing link sent with
  | nil => trivial
  | @cons e e' rest rest' he hrest ih =>
    have hquit : e.Ends .quit ↔ e'.Ends .quit :=
      ⟨ends_of_alike he hstopped (halike _), ends_of_alike he.symm hstopped (halike _).symm⟩
    refine ⟨hquit, fun hpasses ↦ ?_⟩
    obtain ⟨turns, link', sent', hstopped', habandoned', hplay⟩ :=
      exists_pass hpasses link habandoned sent received
    refine ih link' sent' (hstopped'.trans hstopped) habandoned' fun later ↦ ?_
    have hlater := halike (turns ++ later)
    rw [play, play, List.foldl_append, List.foldl_append, ← play, ← play, ← play, ← play,
      hplay e rest rfl, hplay e' rest' (he.message?_eq_iff.2 hquit).symm] at hlater
    exact hlater

end Exchange

open Exchange in
/-- Two readers whose events differ in case do the same, unless one of them is asked to quit where
the other is not. -/
theorem case_unnoticed_iff {events events' : List Event} (h : List.Forall₂ Recased events events')
    (alone : Bool) :
    (∀ turns, Alike ((start events alone).play turns) ((start events' alone).play turns)) ↔
      QuitTogether alone events events' := by
  constructor
  · intro halike
    exact quitTogether_of_alike h _ [] [] rfl rfl halike
  · intro hquits turns
    exact ((start_inStep h hquits).play turns).alike

/-- The events of `interrupted`, with another case wherever that goes unnoticed. -/
def recasedInterrupted : List Event :=
  [.char 'q' {}, .resize, .char 'C' { ctrl := true }, .char 'é' {}, .char 'c' { ctrl := true },
    .char 'X' {}, .failure ⟨"gone"⟩]

open Exchange in
theorem case_unnoticed_interrupted : List.Forall₂ Recased interrupted recasedInterrupted ∧
    ∀ turns, Alike ((start interrupted false).play turns)
      ((start recasedInterrupted false).play turns) := by
  have hrecased : List.Forall₂ Recased interrupted recasedInterrupted :=
    .cons (.letter rfl) <| .cons (.refl _) <| .cons (.refl _) <| .cons (.refl _) <|
      .cons (.refl _) <| .cons (.letter rfl) <| .cons (.refl _) .nil
  refine ⟨hrecased, (case_unnoticed_iff hrecased false).2 ?_⟩
  simp [interrupted, recasedInterrupted, QuitTogether, Event.ends_char_iff]

/-- A letter with control and shift, and then a failure to read. -/
def chordThenFailure (c : Char) : List Event :=
  [.char c { ctrl := true, shift := true }, .failure ⟨"no more events"⟩]

open Exchange in
/-- With control, the letter in lower case quits; its capital is a key, and nothing quits. -/
theorem case_noticed_inChord :
    List.Forall₂ Recased (chordThenFailure 'c') (chordThenFailure 'C') ∧
      ((start (chordThenFailure 'c') false).play (.replicate 9 .reader)).sent = [.quit] ∧
      ((start (chordThenFailure 'c') false).play (.replicate 9 .reader)).link.stopped = true ∧
      ((start (chordThenFailure 'C') false).play (.replicate 9 .reader)).sent =
        [.key 11, .failed ⟨"no more events"⟩] ∧
      ((start (chordThenFailure 'C') false).play (.replicate 9 .reader)).link.stopped = false ∧
      ¬ Alike ((start (chordThenFailure 'c') false).play (.replicate 9 .reader))
        ((start (chordThenFailure 'C') false).play (.replicate 9 .reader)) := by
  refine ⟨.cons (.letter rfl) (.cons (.refl _) .nil), rfl, rfl, rfl, rfl, fun h ↦ ?_⟩
  cases h.sent

end Chip8.Terminal
