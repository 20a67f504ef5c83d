import Chip8.Proofs.Channels
import Chip8.Proofs.Latching
import Mathlib.Data.List.Basic

/-! # Queries of the keypad

A query takes the messages that wait, in order, up to the first one that is no key. That message is
its answer, if it meets one; if it meets none, and the sender is not gone, it answers the newest key
that has been taken so far, as long as the press lasts. The press begins with the query that took
the key.

A query does to the latch what its keys do one after the other, and a look unless it ended early. So
the latch is told from the list of queries, and what is known of latches applies. -/

namespace Chip8.Terminal

open KeyLatch (Act after presses)

/-- What a query answers that meets the message. -/
def Message.error? : Message → Option KeypadError
  | .key _ => none
  | .quit => some .quit
  | .failed e => some (.device e)

@[simp] theorem filterMap_key?_map_key (keys : List UInt8) :
    (keys.map .key).filterMap Message.key? = keys := by
  rw [List.filterMap_map, show Message.key? ∘ Message.key = some from rfl, List.filterMap_some]

theorem error?_of_mem_map_key {keys : List UInt8} {m : Message} (h : m ∈ keys.map .key) :
    m.error? = none := by
  obtain ⟨_, -, rfl⟩ := List.mem_map.1 h
  rfl

theorem filterMap_key?_append {m : Message} {e : KeypadError} (h : m.error? = some e)
    (keys : List UInt8) : (keys.map Message.key ++ [m]).filterMap Message.key? = keys := by
  rw [List.filterMap_append, filterMap_key?_map_key]
  cases m with
  | key => cases h
  | quit | failed => exact List.append_nil keys

/-- The messages of a queue are keys up to one that is none. -/
theorem exists_keys_append (queue : List Message) : ∃ (keys : List UInt8) (rest : List Message),
    queue = keys.map .key ++ rest ∧
      (rest = [] ∨ ∃ m tail e, rest = m :: tail ∧ m.error? = some e) := by
  induction queue with
  | nil => exact ⟨[], [], rfl, .inl rfl⟩
  | cons m queue ih =>
    cases m with
    | key key =>
      obtain ⟨keys, rest, rfl, hrest⟩ := ih
      exact ⟨key :: keys, rest, rfl, hrest⟩
    | quit => exact ⟨[], .quit :: queue, rfl, .inr ⟨.quit, queue, .quit, rfl, rfl⟩⟩
    | failed e => exact ⟨[], .failed e :: queue, rfl, .inr ⟨.failed e, queue, .device e, rfl, rfl⟩⟩

/-- What is taken from a queue, and what is left of it. -/
inductive Takes : List Message → List Message → List Message → Prop
  | all {keys : List UInt8} : Takes (keys.map .key) (keys.map .key) []
  /-- Nothing is taken from behind a message that is no key. -/
  | upTo {keys : List UInt8} {m : Message} {rest : List Message} {e : KeypadError} :
      m.error? = some e → Takes (keys.map .key ++ m :: rest) (keys.map .key ++ [m]) rest

theorem Takes.append_eq {queue taken rest : List Message} (h : Takes queue taken rest) :
    taken ++ rest = queue := by
  cases h with
  | all => exact List.append_nil _
  | upTo => rw [List.append_assoc, List.singleton_append]

/-! ## One query -/

/-- A query that has been made. -/
structure Asked where
  time : Nat
  /-- The messages that it took out of the channel, oldest first. -/
  taken : List Message
  answer : Except KeypadError UInt8

namespace Asked

/-- Whether a query has looked at the latch: it has if it answers a key, or that there is none. -/
def looked (q : Asked) : Bool :=
  match q.answer with
  | .ok _ | .error .noKey => true
  | _ => false

/-- What a query does with the latch, the newest first. -/
def acts (q : Asked) : List Act :=
  (if q.looked then [.look q.time] else []) ++
    ((q.taken.filterMap Message.key?).map (.press · q.time)).reverse

@[simp] theorem looked_elim (now : Nat) (taken : List Message) (key : Option UInt8) :
    looked ⟨now, taken, key.elim (.error .noKey) .ok⟩ = true := by
  cases key <;> rfl

theorem looked_of_error? {now : Nat} {taken : List Message} {m : Message} {e : KeypadError}
    (h : m.error? = some e) : looked ⟨now, taken, .error e⟩ = false := by
  cases m with
  | key => cases h
  | quit | failed =>
    cases h
    rfl

theorem acts_looked (now : Nat) (keys : List UInt8) (key : Option UInt8) :
    acts ⟨now, keys.map .key, key.elim (.error .noKey) .ok⟩ =
      .look now :: (keys.map (.press · now)).reverse := by
  rw [acts, looked_elim, filterMap_key?_map_key]
  rfl

theorem time_of_mem_acts {q : Asked} {a : Act} (h : a ∈ q.acts) : a.time = q.time := by
  obtain h | h := List.mem_append.1 h
  · split at h
    · rw [List.mem_singleton.1 h, Act.time]
    · cases h
  · obtain ⟨_, -, rfl⟩ := List.mem_map.1 (List.mem_reverse.1 h)
    rfl

end Asked

/-- The newest key that queries have taken, and the time of the query that took it; the newest query
comes first. -/
def newestTaken? (asked : List Asked) : Option (UInt8 × Nat) :=
  asked.findSome? fun q ↦ (newestKey q.taken).map (·, q.time)

theorem newestTaken?_cons (q : Asked) (asked : List Asked) : newestTaken? (q :: asked) =
    ((newestKey q.taken).map (·, q.time)).or (newestTaken? asked) := by
  rw [newestTaken?, List.findSome?_cons, ← newestTaken?]
  cases newestKey q.taken <;> rfl

theorem Asked.presses_acts (q : Asked) :
    presses q.acts = ((q.taken.filterMap Message.key?).map (·, q.time)).reverse := by
  have hlook : presses (if q.looked then [.look q.time] else []) = [] := by
    split <;> rfl
  rw [acts, presses, List.filterMap_append, ← presses, hlook, List.nil_append,
    List.filterMap_reverse, List.filterMap_map]
  exact congrArg List.reverse (congrFun List.filterMap_eq_map _)

/-- Of what all queries do with the latch, the latest press is the newest key. -/
theorem head?_presses_flatMap (asked : List Asked) :
    (presses (asked.flatMap Asked.acts)).head? = newestTaken? asked := by
  induction asked with
  | nil => rfl
  | cons q asked ih =>
    rw [newestTaken?_cons, ← ih, List.flatMap_cons, presses, List.filterMap_append, ← presses,
      ← presses, q.presses_acts, List.head?_append, List.head?_reverse, List.getLast?_map,
      newestKey]

/-- Keys that are latched one after the other. -/
def KeyLatch.pressAll (l : KeyLatch) (keys : List UInt8) (now : Nat) : KeyLatch :=
  keys.foldl (fun l key ↦ l.press key now) l

theorem KeyLatch.after_presses (hold : Nat) (keys : List UInt8) (now : Nat) (past : List Act) :
    after hold ((keys.map (.press · now)).reverse ++ past) =
      (after hold past).pressAll keys now := by
  rw [after_append, List.foldr_reverse, List.foldl_map]
  rfl

namespace TerminalKeypad

variable {now hold : Nat} {k k' : TerminalKeypad} {q : Asked} {past : List Act} {key : UInt8}

/-- The record of a query at `now`. -/
def asked (now : Nat) (k : TerminalKeypad) : Asked where
  time := now
  taken := k.channel.queue.take (k.channel.queue.length - (k.query now).2.channel.queue.length)
  answer := (k.query now).1

/-- How a query goes, and what it leaves. -/
inductive Answers (now : Nat) (k : TerminalKeypad) : Asked → TerminalKeypad → Prop
  /-- It ends with a message that is no key; the keys before are latched, but it does not look. -/
  | met {keys : List UInt8} {m : Message} {rest : List Message} {e : KeypadError} :
      m.error? = some e → k.channel.queue = keys.map .key ++ m :: rest →
      Answers now k ⟨now, keys.map .key ++ [m], .error e⟩
        ⟨{ k.channel with queue := rest }, k.latch.pressAll keys now⟩
  /-- The sender is gone. -/
  | gone {keys : List UInt8} : k.channel.closed = true → k.channel.queue = keys.map .key →
      Answers now k ⟨now, keys.map .key, .error .quit⟩
        ⟨{ k.channel with queue := [] }, k.latch.pressAll keys now⟩
  | looked {keys : List UInt8} : k.channel.closed = false → k.channel.queue = keys.map .key →
      Answers now k
        ⟨now, keys.map .key, ((k.latch.pressAll keys now).current now).1.elim (.error .noKey) .ok⟩
        ⟨{ k.channel with queue := [] }, ((k.latch.pressAll keys now).current now).2⟩

/-- Each key takes one look. -/
theorem looks_keys (now : Nat) (keys : List UInt8) (rest : List Message) (limit : Nat) (c : Channel)
    (l : KeyLatch) :
    looks now (keys.length + limit) ⟨{ c with queue := keys.map .key ++ rest }, l⟩ =
      looks now limit ⟨{ c with queue := rest }, l.pressAll keys now⟩ := by
  induction keys generalizing l with
  | nil =>
    rw [List.length_nil, Nat.zero_add]
    rfl
  | cons key keys ih =>
    rw [List.length_cons, Nat.add_right_comm]
    exact ih (l.press key now)

theorem latched_eq (now : Nat) (k : TerminalKeypad) : k.latched now =
    ((k.latch.current now).1.elim (.error .noKey) .ok, ⟨k.channel, (k.latch.current now).2⟩) := by
  unfold latched
  cases k.latch.current now with
  | mk key latch => cases key <;> rfl

theorem query_eq {keys : List UInt8} {rest : List Message} (now : Nat)
    (h : k.channel.queue = keys.map .key ++ rest) :
    k.query now = looks now (rest.length + 1)
      ⟨{ k.channel with queue := rest }, k.latch.pressAll keys now⟩ := by
  obtain ⟨⟨queue, closed, abandoned⟩, latch⟩ := k
  obtain rfl : queue = keys.map .key ++ rest := h
  rw [query, List.length_append, List.length_map, Nat.add_assoc]
  exact looks_keys now keys rest (rest.length + 1) ⟨[], closed, abandoned⟩ latch

theorem query_met {keys : List UInt8} {m : Message} {rest : List Message} {e : KeypadError}
    (now : Nat) (he : m.error? = some e) (h : k.channel.queue = keys.map .key ++ m :: rest) :
    k.query now = (.error e, ⟨{ k.channel with queue := rest }, k.latch.pressAll keys now⟩) := by
  rw [query_eq now h]
  cases m with
  | key => cases he
  | quit | failed =>
    cases he
    rfl

theorem query_gone {keys : List UInt8} (now : Nat) (hclosed : k.channel.closed = true)
    (h : k.channel.queue = keys.map .key) : k.query now =
      (.error .quit, ⟨{ k.channel with queue := [] }, k.latch.pressAll keys now⟩) := by
  rw [query_eq now (h.trans (List.append_nil _).symm)]
  obtain ⟨⟨queue, closed, abandoned⟩, latch⟩ := k
  obtain rfl : closed = true := hclosed
  rfl

theorem query_looked {keys : List UInt8} (now : Nat) (hclosed : k.channel.closed = false)
    (h : k.channel.queue = keys.map .key) : k.query now =
      latched now ⟨{ k.channel with queue := [] }, k.latch.pressAll keys now⟩ := by
  rw [query_eq now (h.trans (List.append_nil _).symm)]
  obtain ⟨⟨queue, closed, abandoned⟩, latch⟩ := k
  obtain rfl : closed = false := hclosed
  rfl

theorem asked_eq {taken : List Message} {answer : Except KeypadError UInt8}
    (h : k.query now = (answer, k')) (htakes : taken ++ k'.channel.queue = k.channel.queue) :
    k.asked now = ⟨now, taken, answer⟩ := by
  rw [asked, h, ← htakes, List.length_append, Nat.add_sub_cancel, List.take_left]

/-- Every query goes in one of the three ways. -/
theorem answers_query (now : Nat) (k : TerminalKeypad) :
    Answers now k (k.asked now) (k.query now).2 := by
  obtain ⟨keys, rest, hqueue, rfl | ⟨m, tail, e, rfl, he⟩⟩ := exists_keys_append k.channel.queue
  · rw [List.append_nil] at hqueue
    have htakes : keys.map .key ++ [] = k.channel.queue := (List.append_nil _).trans hqueue.symm
    cases hclosed : k.channel.closed with
    | true =>
      have hquery := query_gone now hclosed hqueue
      rw [asked_eq hquery htakes, hquery]
      exact .gone hclosed hqueue
    | false =>
      have hquery := (query_looked now hclosed hqueue).trans (latched_eq now _)
      rw [asked_eq hquery htakes, hquery]
      exact .looked hclosed hqueue
  · have hquery := query_met now he hqueue
    have htakes : (keys.map .key ++ [m]) ++ tail = k.channel.queue := by
      rw [hqueue, List.append_assoc, List.singleton_append]
    rw [asked_eq hquery htakes, hquery]
    exact .met he hqueue

theorem elim_eq_ok_iff {shown : Option UInt8} :
    shown.elim (.error .noKey) .ok = (.ok key : Except KeypadError UInt8) ↔ shown = some key := by
  cases shown <;> simp

/-- A query that shows the latched key again leaves everything as it is. -/
theorem query_of_held {time : Nat} (hqueue : k.channel.queue = [])
    (hclosed : k.channel.closed = false) (hheld : k.latch.held = some (key, time))
    (hnow : now - time < k.latch.hold) :
    k.query now = (.ok key, k) := by
  obtain ⟨⟨queue, closed, abandoned⟩, latch⟩ := k
  obtain rfl : queue = ([] : List UInt8).map .key := hqueue
  have hcurrent : latch.current now = (some key, latch) := by
    rw [KeyLatch.current, hheld]
    exact if_pos hnow
  rw [query_looked now hclosed rfl, latched_eq]
  show (((latch.current now).1).elim _ _, TerminalKeypad.mk _ (latch.current now).2) = _
  rw [hcurrent]
  rfl

namespace Answers

theorem takes (h : Answers now k q k') : Takes k.channel.queue q.taken k'.channel.queue := by
  cases h with
  | met he hqueue =>
    rw [hqueue]
    exact .upTo he
  | gone _ hqueue | looked _ hqueue =>
    rw [hqueue]
    exact .all

/-- A query changes nothing about the channel but its queue. -/
theorem channel_eq (h : Answers now k q k') :
    k'.channel = { k.channel with queue := k'.channel.queue } := by
  cases h <;> rfl

/-- The latch after a query. -/
theorem latch_eq (h : Answers now k q k') (hl : k.latch = after hold past) :
    k'.latch = after hold (q.acts ++ past) := by
  cases h with
  | met he =>
    rw [Asked.acts, Asked.looked_of_error? he, filterMap_key?_append he, hl]
    exact (KeyLatch.after_presses hold _ now past).symm
  | gone =>
    rw [Asked.acts, filterMap_key?_map_key, hl]
    exact (KeyLatch.after_presses hold _ now past).symm
  | looked =>
    rw [Asked.acts_looked, hl, ← KeyLatch.after_presses]
    rfl

theorem answer_of_error? (h : Answers now k q k') {m : Message} {e : KeypadError} (hm : m ∈ q.taken)
    (he : m.error? = some e) : q.answer = .error e := by
  cases h with
  | met hlast =>
    obtain hm | hm := List.mem_append.1 hm
    · cases (error?_of_mem_map_key hm).symm.trans he
    · cases List.mem_singleton.1 hm
      cases hlast.symm.trans he
      rfl
  | gone | looked => cases (error?_of_mem_map_key hm).symm.trans he

/-- A query that meets no message but keys comes to the end of the queue. -/
theorem cases_of_keys (h : Answers now k q k') (hkeys : ∀ m ∈ q.taken, m.error? = none) :
    k.channel.closed = true ∧ q.answer = .error .quit ∨
      k.channel.closed = false ∧ ∃ keys : List UInt8,
        q = ⟨now, keys.map .key,
          ((k.latch.pressAll keys now).current now).1.elim (.error .noKey) .ok⟩ ∧
        k' = ⟨{ k.channel with queue := [] }, ((k.latch.pressAll keys now).current now).2⟩ := by
  cases h with
  | @met keys m rest e he =>
    have hnone : m.error? = none := hkeys m (List.mem_append_right _ (List.mem_singleton_self m))
    cases hnone.symm.trans he
  | gone hclosed => exact .inl ⟨hclosed, rfl⟩
  | looked hopen => exact .inr ⟨hopen, _, rfl, rfl⟩

theorem answer_of_closed (h : Answers now k q k') (hkeys : ∀ m ∈ q.taken, m.error? = none)
    (hclosed : k.channel.closed = true) : q.answer = .error .quit := by
  obtain ⟨-, hquit⟩ | ⟨hopen, -⟩ := h.cases_of_keys hkeys
  · exact hquit
  · cases hopen.symm.trans hclosed

/-- The newest key that has been taken is answered as long as the press lasts. -/
theorem answer_iff (h : Answers now k q k') (hl : k.latch = after hold past)
    (hle : ∀ a ∈ past, a.time ≤ now) (hkeys : ∀ m ∈ q.taken, m.error? = none)
    (hopen : k.channel.closed = false) : q.answer = .ok key ↔
      ∃ time, (presses (q.acts ++ past)).head? = some (key, time) ∧ now - time < hold := by
  obtain ⟨hclosed, -⟩ | ⟨-, keys, rfl, -⟩ := h.cases_of_keys hkeys
  · cases hopen.symm.trans hclosed
  have hshown : ((k.latch.pressAll keys now).current now).1 =
      KeyLatch.shown hold ((keys.map (.press · now)).reverse ++ past) now := by
    rw [KeyLatch.shown, KeyLatch.after_presses, hl]
  have hbefore : ∀ a ∈ (keys.map (.press · now)).reverse ++ past, a.time ≤ now := by
    intro a ha
    obtain ha | ha := List.mem_append.1 ha
    · obtain ⟨_, -, rfl⟩ := List.mem_map.1 (List.mem_reverse.1 ha)
      exact Nat.le_refl now
    · exact hle a ha
  rw [Asked.acts_looked, elim_eq_ok_iff, hshown, KeyLatch.shown_iff_of_le hbefore]
  rfl

theorem answer_eq_noKey (h : Answers now k q k') (hkeys : ∀ m ∈ q.taken, m.error? = none)
    (hopen : k.channel.closed = false) (hnone : ∀ key, q.answer ≠ .ok key) :
    q.answer = .error .noKey := by
  obtain ⟨hclosed, -⟩ | ⟨-, keys, rfl, -⟩ := h.cases_of_keys hkeys
  · cases hopen.symm.trans hclosed
  cases hshown : ((k.latch.pressAll keys now).current now).1 with
  | none => rfl
  | some key => exact absurd (elim_eq_ok_iff.2 hshown) (hnone key)

/-- A query that answers a key leaves an empty queue and the key in the latch. -/
theorem of_answer_eq_ok (h : Answers now k q k') (hkey : q.answer = .ok key) :
    k.channel.closed = false ∧ k'.channel.queue = [] ∧
      ∃ time, k'.latch.held = some (key, time) := by
  cases h with
  | met | gone => cases hkey
  | looked hopen =>
    obtain ⟨time, hheld⟩ := KeyLatch.current_eq_some_iff.1 (elim_eq_ok_iff.1 hkey)
    exact ⟨hopen, rfl, time, KeyLatch.held_current_eq_some_iff.2 hheld⟩

end Answers

end TerminalKeypad

/-! ## All queries -/

/-- A keypad, and the queries that have been made, the newest first. -/
structure Inbox where
  keypad : TerminalKeypad
  asked : List Asked

namespace Inbox

/-- What happens at the two ends of the channel. -/
inductive Move
  | send (m : Message)
  /-- The sender goes; what is sent after that is lost. -/
  | close
  | query (now : Nat)
deriving DecidableEq

/-- The messages that are sent while the sender is there. -/
def sent : List Move → List Message
  | [] => []
  | .send m :: moves => m :: sent moves
  | .close :: _ => []
  | .query _ :: moves => sent moves

/-- A keypad that has not been used. -/
def start (hold : Nat) : Inbox := ⟨⟨{}, .ofHold hold⟩, []⟩

def step (s : Inbox) : Move → Inbox
  | .send m => { s with keypad := { s.keypad with channel := s.keypad.channel.send m } }
  | .close => { s with keypad := { s.keypad with channel := s.keypad.channel.close } }
  | .query now => ⟨(s.keypad.query now).2, s.keypad.asked now :: s.asked⟩

def play (s : Inbox) (moves : List Move) : Inbox := moves.foldl step s

/-- All that queries have taken out of the channel, oldest first. -/
def taken (s : Inbox) : List Message := s.asked.reverse.flatMap Asked.taken

variable {hold now : Nat} {past moves : List Move} {s : Inbox}

theorem sent_append (past moves : List Move) :
    sent (past ++ moves) = sent past ++ if .close ∈ past then [] else sent moves := by
  induction past with
  | nil => rfl
  | cons move past ih => cases move with
    | send m =>
      rw [List.cons_append, sent, sent, ih, List.cons_append]
      simp only [List.mem_cons, reduceCtorEq, false_or]
    | close => simp [sent]
    | query t =>
      rw [List.cons_append, sent, sent, ih]
      simp only [List.mem_cons, reduceCtorEq, false_or]

/-- What holds after `past`, whatever it was. -/
structure Inv (hold : Nat) (past : List Move) (s : Inbox) : Prop where
  listened : s.keypad.channel.abandoned = false
  closed_eq : s.keypad.channel.closed = decide (.close ∈ past)
  fifo : s.taken ++ s.keypad.channel.queue = sent past
  latch : s.keypad.latch = after hold (s.asked.flatMap Asked.acts)
  query_mem : ∀ q ∈ s.asked, .query q.time ∈ past

theorem start_inv (hold : Nat) : Inv hold [] (start hold) where
  listened := rfl
  closed_eq := rfl
  fifo := rfl
  latch := rfl
  query_mem := nofun

/-- A message is kept as long as the sender is there. -/
theorem Inv.queue_send (h : Inv hold past s) (m : Message) : (s.keypad.channel.send m).queue =
    s.keypad.channel.queue ++ if .close ∈ past then [] else [m] := by
  rw [Channel.send_eq, Channel.accepts, h.listened, h.closed_eq]
  by_cases hclose : .close ∈ past <;> simp [hclose]

theorem Inv.step (h : Inv hold past s) (move : Move) : Inv hold (past ++ [move]) (s.step move) := by
  cases move with
  | send m =>
    constructor
    case listened =>
      show (s.keypad.channel.send m).abandoned = false
      rw [Channel.send_eq, ← h.listened]
    case closed_eq =>
      show (s.keypad.channel.send m).closed = _
      rw [Channel.send_eq, h.closed_eq]
      simp
    case fifo =>
      show s.taken ++ (s.keypad.channel.send m).queue = _
      rw [h.queue_send, ← List.append_assoc, h.fifo, sent_append]
      rfl
    case latch => exact h.latch
    case query_mem => exact fun q hq ↦ List.mem_append_left _ (h.query_mem q hq)
  | close =>
    constructor
    case listened => exact h.listened
    case closed_eq => simp [Inbox.step, Channel.close]
    case fifo =>
      rw [sent_append, sent, ite_self, List.append_nil]
      exact h.fifo
    case latch => exact h.latch
    case query_mem => exact fun q hq ↦ List.mem_append_left _ (h.query_mem q hq)
  | query now =>
    have hanswers := s.keypad.answers_query now
    have hchannel := hanswers.channel_eq
    constructor
    case listened =>
      show (s.keypad.query now).2.channel.abandoned = false
      rw [hchannel, ← h.listened]
    case closed_eq =>
      show (s.keypad.query now).2.channel.closed = _
      rw [hchannel, h.closed_eq]
      simp
    case fifo =>
      show (s.step (.query now)).taken ++ (s.keypad.query now).2.channel.queue = _
      rw [sent_append, sent, sent, ite_self, List.append_nil, ← h.fifo, taken, Inbox.step,
        List.reverse_cons, List.flatMap_append, List.flatMap_singleton, List.append_assoc,
        hanswers.takes.append_eq]
      rfl
    case latch => exact hanswers.latch_eq h.latch
    case query_mem =>
      intro q hq
      obtain rfl | hq := List.mem_cons.1 hq
      · exact List.mem_append_right _ (List.mem_singleton_self _)
      · exact List.mem_append_left _ (h.query_mem q hq)

theorem Inv.play (h : Inv hold past s) (moves : List Move) :
    Inv hold (past ++ moves) (s.play moves) := by
  induction moves generalizing past s with
  | nil => exact (List.append_nil past).symm ▸ h
  | cons move moves ih =>
    rw [List.append_cons]
    exact ih (h.step move)

/-- After keys alone, a query looks at the newest key that has been taken. -/
theorem Inv.answer_iff (h : Inv hold past s) (hle : ∀ t, .query t ∈ past → t ≤ now)
    (hkeys : ∀ m ∈ (s.keypad.asked now).taken, m.error? = none) (hclose : .close ∉ past)
    {key : UInt8} : (s.keypad.asked now).answer = .ok key ↔
      ∃ time, newestTaken? (s.keypad.asked now :: s.asked) = some (key, time) ∧
        now - time < hold := by
  have hbefore : ∀ a ∈ s.asked.flatMap Asked.acts, a.time ≤ now := by
    intro a ha
    obtain ⟨q, hq, ha⟩ := List.mem_flatMap.1 ha
    rw [Asked.time_of_mem_acts ha]
    exact hle _ (h.query_mem q hq)
  have hopen : s.keypad.channel.closed = false := by rw [h.closed_eq, decide_eq_false hclose]
  rw [(s.keypad.answers_query now).answer_iff h.latch hbefore hkeys hopen, ← head?_presses_flatMap]
  rfl

/-- What a query at `now` comes to that is made after all of `past`. -/
structure Serves (hold : Nat) (past : List Move) (now : Nat) (s s' : Inbox) (q : Asked) : Prop where
  /-- No message is lost, and none is taken twice. -/
  fifo : s'.taken ++ s'.keypad.channel.queue = sent past
  /-- It takes all that waits, or everything up to the first message that is no key. -/
  takes : Takes s.keypad.channel.queue q.taken s'.keypad.channel.queue
  /-- It answers such a message, -/
  met : ∀ m ∈ q.taken, ∀ e, m.error? = some e → q.answer = .error e
  /-- or else that the sender is gone, whatever key may be held, -/
  gone : (∀ m ∈ q.taken, m.error? = none) → .close ∈ past → q.answer = .error .quit
  /-- or else the newest key that this query or an earlier one has taken, as long as that query is
  not too long ago, -/
  held : (∀ m ∈ q.taken, m.error? = none) → .close ∉ past → ∀ key, q.answer = .ok key ↔
    ∃ time, newestTaken? s'.asked = some (key, time) ∧ now - time < hold
  /-- or else that there is none. -/
  none : (∀ m ∈ q.taken, m.error? = none) → .close ∉ past → (∀ key, q.answer ≠ .ok key) →
    q.answer = .error .noKey
  /-- A key that has been answered is not used up: until the time of its press is over, any further
  queries answer it again and change nothing. -/
  again : ∀ key, q.answer = .ok key → ∃ time, newestTaken? s'.asked = some (key, time) ∧
    ∀ t, t - time < hold → s'.keypad.query t = (.ok key, s'.keypad)

end Inbox

open Inbox in
/-- Every query is served so, whatever has gone before, unless an earlier query was made later. -/
theorem keypad_serves (hold : Nat) (past : List Move) (now : Nat)
    (h : ∀ t, .query t ∈ past → t ≤ now) :
    Serves hold past now ((start hold).play past) (((start hold).play past).step (.query now))
      (((start hold).play past).keypad.asked now) := by
  have hinv : Inv hold past ((start hold).play past) := (start_inv hold).play past
  have hinv' := hinv.step (.query now)
  generalize (start hold).play past = s at hinv hinv' ⊢
  have hanswers := s.keypad.answers_query now
  constructor
  case fifo =>
    rw [hinv'.fifo, sent_append, sent, sent, ite_self, List.append_nil]
  case takes => exact hanswers.takes
  case met => exact fun m hm e he ↦ hanswers.answer_of_error? hm he
  case gone =>
    intro hkeys hclose
    exact hanswers.answer_of_closed hkeys (by rw [hinv.closed_eq, decide_eq_true hclose])
  case held =>
    intro hkeys hclose key
    exact hinv.answer_iff h hkeys hclose
  case none =>
    intro hkeys hclose hnone
    exact hanswers.answer_eq_noKey hkeys (by rw [hinv.closed_eq, decide_eq_false hclose]) hnone
  case again =>
    intro key hkey
    obtain ⟨hopen, hempty, time, hheld⟩ := hanswers.of_answer_eq_ok hkey
    have hlatch : (s.keypad.query now).2.latch = after hold _ := hinv'.latch
    refine ⟨time, ?_, fun t ht ↦ ?_⟩
    · rw [hlatch, KeyLatch.held_after_iff] at hheld
      obtain ⟨looks, hlatest, -⟩ := hheld
      rw [← head?_presses_flatMap]
      exact KeyLatch.head?_presses_iff.2 ⟨looks, hlatest⟩
    · have hclosed : (s.keypad.query now).2.channel.closed = false := by
        rw [hanswers.channel_eq, ← hopen]
      have hhold : (s.keypad.query now).2.latch.hold = hold := by
        rw [hlatch, KeyLatch.hold_after]
      exact TerminalKeypad.query_of_held hempty hclosed hheld
        (Nat.lt_of_lt_of_eq ht hhold.symm)

/-- The query at 10 ends with the message between the two keys. -/
def quitBetween : List Inbox.Move :=
  [.send (.key 3), .send .quit, .send (.key 5), .query 10]

open Inbox in
/-- The key behind that message is taken by the next query, at 20, and answered until 169; but not
by a query that finds the sender gone. -/
theorem keypad_serves_quitBetween :
    (∀ t, .query t ∈ quitBetween → t ≤ 20) ∧
      ((start 150).play quitBetween).asked = [⟨10, [.key 3, .quit], .error .quit⟩] ∧
      (((start 150).play quitBetween).keypad.asked 20).answer = .ok 5 ∧
      ((((start 150).play quitBetween).keypad.query 20).2.query 169).1 = .ok 5 ∧
      (((start 150).play (quitBetween ++ [.close])).keypad.asked 20).answer = .error .quit := by
  have hbefore : ∀ t, .query t ∈ quitBetween → t ≤ 20 := by simp [quitBetween]
  have hserves := keypad_serves 150 quitBetween 20 hbefore
  have hanswer : (((start 150).play quitBetween).keypad.asked 20).answer = .ok 5 :=
    (hserves.held (by decide) (by decide) 5).2 ⟨20, rfl, by decide⟩
  obtain ⟨time, htime, hagain⟩ := hserves.again 5 hanswer
  cases htime
  refine ⟨hbefore, rfl, hanswer, congrArg Prod.fst (hagain 169 (by decide)), ?_⟩
  exact (keypad_serves 150 (quitBetween ++ [.close]) 20 (by simp [quitBetween])).gone (by decide)
    (by decide)

end Chip8.Terminal
