import Chip8.Proofs.Queries

/-! # How long a press is seen

The keys that a terminal reports wait in the channel, and with a key waits its press: it begins with
the first query after it, whenever it was made. So a press is seen for its hold and for the time
that it has waited.

Presses and queries are listed as the acts of a latch are, the newest first. -/

namespace Chip8.Terminal

open KeyLatch (Act InOrder LatestPress)

/-- Nothing is left behind keys. -/
theorem Takes.of_keys {queue taken rest : List Message} (h : Takes queue taken rest)
    (hkeys : ∀ m ∈ taken, m.error? = none) : taken = queue ∧ rest = [] := by
  cases h with
  | all => exact ⟨rfl, rfl⟩
  | @upTo keys m _ e he =>
    have hnone := hkeys m (List.mem_append_right _ (List.mem_singleton_self m))
    cases hnone.symm.trans he

namespace Inbox

/-- A key is sent when it is pressed, and a look is a query. -/
def Move.ofAct : Act → Move
  | .press key _ => .send (.key key)
  | .look now => .query now

/-- A keypad after presses and queries. -/
def after (hold : Nat) (past : List Act) : Inbox :=
  past.foldr (fun a s ↦ s.step (.ofAct a)) (start hold)

variable {hold now : Nat} {past : List Act} {key : UInt8}

theorem after_inv (hold : Nat) (past : List Act) :
    Inv hold (past.reverse.map Move.ofAct) (after hold past) := by
  induction past with
  | nil => exact start_inv hold
  | cons a past ih =>
    rw [List.reverse_cons, List.map_append]
    exact ih.step (.ofAct a)

theorem close_not_mem (acts : List Act) : .close ∉ acts.map Move.ofAct := by
  intro h
  obtain ⟨a, -, ha⟩ := List.mem_map.1 h
  cases a <;> cases ha

theorem error?_of_mem_sent {acts : List Act} {m : Message} (h : m ∈ sent (acts.map Move.ofAct)) :
    m.error? = none := by
  induction acts with
  | nil => cases h
  | cons a acts ih =>
    cases a with
    | press =>
      obtain rfl | h := List.mem_cons.1 h
      · rfl
      · exact ih h
    | look => exact ih h

/-- All messages are keys. -/
theorem error?_of_mem_taken {m : Message} (h : m ∈ ((after hold past).keypad.asked now).taken) :
    m.error? = none := by
  have hfifo := (after_inv hold past).fifo
  have htakes := ((after hold past).keypad.answers_query now).takes.append_eq
  refine error?_of_mem_sent (hfifo ▸ List.mem_append_right _ ?_)
  rw [← htakes]
  exact List.mem_append_left _ h

theorem takes_all (hold now : Nat) (past : List Act) :
    ((after hold past).keypad.asked now).taken = (after hold past).keypad.channel.queue ∧
      (after hold (.look now :: past)).keypad.channel.queue = [] :=
  ((after hold past).keypad.answers_query now).takes.of_keys fun _ hm ↦ error?_of_mem_taken hm

theorem queue_press (hold time : Nat) (key : UInt8) (past : List Act) :
    (after hold (.press key time :: past)).keypad.channel.queue =
      (after hold past).keypad.channel.queue ++ [.key key] := by
  show ((after hold past).keypad.channel.send (.key key)).queue = _
  rw [(after_inv hold past).queue_send, if_neg (close_not_mem _)]

theorem newestTaken?_look (hold now : Nat) (past : List Act) :
    newestTaken? (after hold (.look now :: past)).asked =
      ((newestKey (after hold past).keypad.channel.queue).map (·, now)).or
        (newestTaken? (after hold past).asked) := by
  show newestTaken? ((after hold past).keypad.asked now :: (after hold past).asked) = _
  rw [newestTaken?_cons, (takes_all hold now past).1]
  rfl

/-- The key of the latest press is taken by the first query since then. -/
theorem newestTaken?_look_iff {t : Nat} :
    newestTaken? (after hold (.look now :: past)).asked = some (key, t) ↔
      ∃ time looks, LatestPress past key time looks ∧ looks.getLastD now = t := by
  induction past generalizing now with
  | nil =>
    constructor
    · intro h
      cases h
    · rintro ⟨_, _, h, -⟩
      cases h
  | cons a past ih =>
    rw [newestTaken?_look]
    cases a with
    | press k time =>
      rw [queue_press, newestKey_append_key]
      constructor
      · intro h
        cases h
        exact ⟨time, [], .press, rfl⟩
      · rintro ⟨_, _, h, rfl⟩
        cases h
        rfl
    | look u =>
      rw [(takes_all hold u past).2]
      refine ih.trans ⟨?_, ?_⟩
      · rintro ⟨time, looks, h, rfl⟩
        exact ⟨time, u :: looks, h.look, List.getLastD_cons⟩
      · rintro ⟨time, _, h, rfl⟩
        cases h with
        | look h => exact ⟨time, _, h, List.getLastD_cons.symm⟩

end Inbox

open Inbox in
/-- A query answers the key of the latest press if the first query since that press was made less
than the hold ago. -/
theorem press_seen_iff {hold now : Nat} {past : List Act} (h : InOrder past now) {key : UInt8} :
    ((after hold past).keypad.query now).1 = .ok key ↔
      ∃ time looks, LatestPress past key time looks ∧ now - looks.getLastD now < hold := by
  have hle : ∀ t, .query t ∈ past.reverse.map Move.ofAct → t ≤ now := by
    intro t ht
    obtain ⟨a, ha, heq⟩ := List.mem_map.1 ht
    cases a with
    | press => cases heq
    | look u =>
      cases heq
      exact h.le (List.mem_reverse.1 ha)
  have hkeys : ∀ m ∈ ((after hold past).keypad.asked now).taken, m.error? = none :=
    fun _ hm ↦ error?_of_mem_taken hm
  refine ((after_inv hold past).answer_iff hle hkeys (close_not_mem _)).trans ⟨?_, ?_⟩
  · rintro ⟨t, htaken, hlt⟩
    obtain ⟨time, looks, hlatest, rfl⟩ := newestTaken?_look_iff.1 htaken
    exact ⟨time, looks, hlatest, hlt⟩
  · rintro ⟨time, looks, hlatest, hlt⟩
    exact ⟨_, newestTaken?_look_iff.2 ⟨time, looks, hlatest, rfl⟩, hlt⟩

/-- The key is asked for long after its press. -/
def askedLate : List Act := [.look 400, .press 5 100]

open Inbox in
/-- The press lasts from the first query on, and so is seen until 449 after it was made. -/
theorem press_seen_iff_askedLate :
    InOrder askedLate 549 ∧ ((after 150 askedLate).keypad.query 549).1 = .ok 5 ∧
      InOrder askedLate 550 ∧ ∀ key, ((after 150 askedLate).keypad.query 550).1 ≠ .ok key := by
  have hseen : InOrder askedLate 549 := by simp [InOrder, askedLate, Act.time]
  have hover : InOrder askedLate 550 := by simp [InOrder, askedLate, Act.time]
  refine ⟨hseen, (press_seen_iff hseen).2 ⟨100, [400], .look .press, by decide⟩, hover, ?_⟩
  intro key hkey
  obtain ⟨_, _, hlatest, hlt⟩ := (press_seen_iff hover).1 hkey
  cases hlatest with
  | look hlatest =>
    cases hlatest
    exact absurd hlt (by decide)

open Inbox in
/-- A press of which no query is made until its hold is over is seen all the same. -/
theorem press_seen_late :
    InOrder [.press 5 0] 200 ∧ ((after 150 [.press 5 0]).keypad.query 200).1 = .ok 5 ∧
      ¬ ∃ time looks, LatestPress [.press 5 0] 5 time looks ∧ 200 - time < 150 := by
  refine ⟨by simp [InOrder, Act.time], rfl, ?_⟩
  rintro ⟨_, _, hlatest, hlt⟩
  cases hlatest
  exact absurd hlt (by decide)

end Chip8.Terminal
