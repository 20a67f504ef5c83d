import Chip8.Proofs.RunLoop

/-! # What the devices are asked

The requests that cycles make of the devices, in order. They can be told from the machines that the
cycles find: a drawing asks the display once, a key instruction the keypad once, and the sound timer
asks the speaker where it is about to run out; nothing else asks for anything. -/

namespace Chip8

variable {ε α : Type}

/-- A call of a device. A query of the keypad is told with its answer. -/
inductive Request
  | draw (grid : Grid)
  | key (answer : Except KeypadError UInt8)
  | cue

/-! ## Recording -/

/-- The devices of `host`, with every call written down behind those before it. -/
def Host.recording (host : Host ε) : Host (ε × List Request) where
  draw grid e :=
    let (result, outside) := host.draw grid e.1
    (result, (outside, e.2 ++ [.draw grid]))
  key e :=
    let (answer, outside) := host.key e.1
    (answer, (outside, e.2 ++ [.key answer]))
  cue e :=
    let (result, outside) := host.cue e.1
    (result, (outside, e.2 ++ [.cue]))

theorem Host.recording_shows (host : Host ε) : host.recording.Shows host Prod.fst where
  draw _ _ := rfl
  key _ := rfl
  cue _ := rfl

/-- What `f` shows of the outside is changed by requests alone, as `update` says. -/
structure Host.Follows (host : Host ε) (f : ε → α) (update : α → Request → α) : Prop where
  draw (grid : Grid) (e : ε) : f (host.draw grid e).2 = update (f e) (.draw grid)
  key (e : ε) : f (host.key e).2 = update (f e) (.key (host.key e).1)
  cue (e : ε) : f (host.cue e).2 = update (f e) .cue

theorem Host.recording_follows (host : Host ε) :
    host.recording.Follows Prod.snd fun log request ↦ log ++ [request] where
  draw _ _ := rfl
  key _ := rfl
  cue _ := rfl

/-! ## The requests of a cycle -/

def Effect.requests (host : Host ε) (outside : ε) : Effect → List Request
  | .done _ | .refused _ | .fault _ => []
  | .drawn m => [.draw m.grid]
  | .asking _ => [.key (host.key outside).1]

/-- A drawing offers the display the grid with the sprite on it, and a key instruction asks for a
key, whatever comes of it. -/
def Instruction.requests (host : Host ε) (m : Machine) (outside : ε) : Instruction → List Request
  | .draw x y rows =>
    [.draw (m.grid.drawSprite (m.memory.getBlock m.i rows) (m.reg x) (m.reg y)).1]
  | .skipPressed _ | .skipNotPressed _ | .waitKey _ => [.key (host.key outside).1]
  | _ => []

theorem Machine.requests_execute (host : Host ε) (m : Machine) (outside : ε) (i : Instruction) :
    (m.execute i).requests host outside = i.requests host m outside := by
  cases i with
  | ret =>
    rw [execute]
    obtain ⟨_, hr⟩ | ⟨_, _, hr⟩ | ⟨_, hr⟩ := m.ret_cases
    all_goals
      rw [hr]
      rfl
  | call addr =>
    rw [execute]
    obtain ⟨_, hc⟩ | ⟨_, hc⟩ | ⟨_, _, hc⟩ := m.call_cases addr
    all_goals
      rw [hc]
      rfl
  | draw x y rows =>
    obtain ⟨grid, collision, hg, hd⟩ := m.draw_cases x y rows
    rw [execute, hd, Instruction.requests, hg]
    rfl
  | _ => rfl

namespace Computer

open Instruction

variable {host : Host ε} {f : ε → α} {update : α → Request → α}

/-- What the instruction at the program counter asks for; a word that is none asks for nothing. -/
def stepRequests (host : Host ε) (c : Computer ε) : List Request :=
  match decode? c.machine.fetch with
  | some i => i.requests host c.machine c.outside
  | none => []

/-- The cue, if the sound timer is about to run out. -/
def timerRequests (c : Computer ε) : List Request :=
  if c.machine.sound = 1 then [.cue] else []

/-- What a cycle asks for: its instruction, and, only if that succeeds, the timers that
it leaves. -/
def requests (host : Host ε) (c : Computer ε) : List Request :=
  c.stepRequests host ++
    match c.step host with
    | (.ok (), c') => c'.timerRequests
    | (.error _, _) => []

theorem perform_follows (hf : host.Follows f update) (c : Computer ε) (effect : Effect) :
    f (c.perform host effect).2.outside =
      (effect.requests host c.outside).foldl update (f c.outside) := by
  cases effect with
  | done | refused | fault => rfl
  | drawn m =>
    have hdraw := hf.draw m.grid c.outside
    rw [Effect.requests, List.foldl_cons, List.foldl_nil, ← hdraw, perform]
    split
    · next hd => rw [hd]
    · next hd => rw [hd]
  | asking resume =>
    have hkey := hf.key c.outside
    rw [Effect.requests, List.foldl_cons, List.foldl_nil, ← hkey, perform]
    split
    · next hk => rw [hk]
    · next hk => rw [hk]
    · next hk => rw [hk]

theorem step_follows (hf : host.Follows f update) (c : Computer ε) :
    f (c.step host).2.outside = (c.stepRequests host).foldl update (f c.outside) := by
  rw [stepRequests]
  cases hd : decode? c.machine.fetch with
  | none =>
    rw [step_of_unknown (decode_eq_error_iff.2 ⟨hd, rfl⟩)]
    rfl
  | some i =>
    rw [step_of_decode (decode_eq_ok_iff.2 hd), perform_follows hf, Machine.requests_execute]

theorem countDown_follows (hf : host.Follows f update) (c : Computer ε) :
    f (c.countDown host).2.outside = c.timerRequests.foldl update (f c.outside) := by
  obtain ⟨hne, hd⟩ | ⟨hone, _, hq, hd⟩ | ⟨hone, _, _, hq, hd⟩ := countDown_cases host c
  · rw [hd, timerRequests, if_neg hne]
    rfl
  · rw [hd, timerRequests, if_pos hone, List.foldl_cons, List.foldl_nil, ← hf.cue, hq]
  · rw [hd, timerRequests, if_pos hone, List.foldl_cons, List.foldl_nil, ← hf.cue, hq]

theorem cycle_follows (hf : host.Follows f update) (c : Computer ε) :
    f (c.cycle host).2.outside = (c.requests host).foldl update (f c.outside) := by
  have hstep := step_follows hf c
  rw [requests, List.foldl_append, ← hstep, cycle]
  rcases c.step host with ⟨halt | _, c₁⟩
  · rfl
  · have hdown := countDown_follows hf c₁
    simp only [← hdown]
    rcases c₁.countDown host with ⟨halt | _, c₂⟩ <;> rfl

/-! ## The requests of many cycles -/

/-- The requests of so many cycles called by hand, in the order of the cycles. -/
def cyclesRequests (host : Host ε) (n : Nat) (c : Computer ε) : List Request :=
  (List.range n).flatMap fun k ↦ (cycles host k c).requests host

theorem cyclesRequests_succ (host : Host ε) (n : Nat) (c : Computer ε) :
    cyclesRequests host (n + 1) c = cyclesRequests host n c ++ (cycles host n c).requests host := by
  rw [cyclesRequests, List.range_succ, List.flatMap_append, List.flatMap_singleton]
  rfl

theorem cycles_succ (host : Host ε) (n : Nat) (c : Computer ε) :
    cycles host (n + 1) c = ((cycles host n c).cycle host).2 :=
  Function.iterate_succ_apply' _ n c

theorem cycles_follows (hf : host.Follows f update) (n : Nat) (c : Computer ε) :
    f (cycles host n c).outside = (cyclesRequests host n c).foldl update (f c.outside) := by
  induction n with
  | zero => rfl
  | succ n ih => rw [cycles_succ, cycle_follows hf, ih, cyclesRequests_succ, List.foldl_append]

/-! ### Seen from outside -/

variable {δ : Type} {devices : Host δ} {view : ε → δ}

theorem stepRequests_seen (hv : host.Shows devices view) (c : Computer ε) :
    (c.seen id view).stepRequests devices = c.stepRequests host := by
  have hkey : (devices.key (view c.outside)).1 = (host.key c.outside).1 := by
    rw [hv.key]
    rfl
  show (match decode? c.machine.fetch with
    | some i => i.requests devices c.machine (view c.outside)
    | none => []) = _
  rw [stepRequests]
  cases decode? c.machine.fetch with
  | none => rfl
  | some i => cases i with
    | skipPressed | skipNotPressed | waitKey => simp only [Instruction.requests, hkey]
    | _ => rfl

theorem requests_seen (hv : host.Shows devices view) (c : Computer ε) :
    (c.seen id view).requests devices = c.requests host := by
  rw [requests, requests, stepRequests_seen hv, step_seen Machine.unnoticed_id hv]
  rcases c.step host with ⟨halt | _, c₁⟩ <;> rfl

theorem cycles_seen (hv : host.Shows devices view) (n : Nat) (c : Computer ε) :
    (cycles host n c).seen id view = cycles devices n (c.seen id view) := by
  have hcycle : Function.Semiconj (seen id view) (fun c ↦ (c.cycle host).2)
      (fun c ↦ (c.cycle devices).2) := by
    intro c
    show (c.cycle host).2.seen id view = ((c.seen id view).cycle devices).2
    rw [cycle_seen Machine.unnoticed_id hv]
    rfl
  exact hcycle.iterate_right n c

theorem cyclesRequests_seen (hv : host.Shows devices view) (n : Nat) (c : Computer ε) :
    cyclesRequests devices n (c.seen id view) = cyclesRequests host n c := by
  simp only [cyclesRequests, ← cycles_seen hv, requests_seen hv]

/-! ### The record -/

/-- A computer before anything is recorded. -/
def recorded (c : Computer ε) : Computer (ε × List Request) := ⟨c.machine, (c.outside, [])⟩

/-- What has been recorded after `n` cycles. -/
def trace (host : Host ε) (n : Nat) (c : Computer ε) : List Request :=
  (cycles host.recording n c.recorded).outside.2

theorem foldl_record (log requests : List Request) :
    requests.foldl (fun log request ↦ log ++ [request]) log = log ++ requests := by
  rw [List.foldl_append_eq_append, ← List.flatMap_def, List.flatMap_singleton']

theorem trace_eq (host : Host ε) (n : Nat) (c : Computer ε) :
    trace host n c = cyclesRequests host n c := by
  calc trace host n c
    _ = [] ++ cyclesRequests host.recording n c.recorded := by
      rw [← foldl_record]
      exact cycles_follows host.recording_follows n c.recorded
    _ = cyclesRequests host n c := (cyclesRequests_seen host.recording_shows n c.recorded).symm

theorem stepTrace_eq (host : Host ε) (c : Computer ε) :
    (c.recorded.step host.recording).2.outside.2 = c.stepRequests host := by
  calc (c.recorded.step host.recording).2.outside.2
    _ = [] ++ c.recorded.stepRequests host.recording := by
      rw [← foldl_record]
      exact step_follows host.recording_follows c.recorded
    _ = c.stepRequests host := (stepRequests_seen host.recording_shows c.recorded).symm

end Computer

/-! ## A scripted keypad -/

def Request.isKey : Request → Bool
  | .key _ => true
  | _ => false

def Request.answer? : Request → Option (Except KeypadError UInt8)
  | .key answer => some answer
  | _ => none

/-- The answers of the keypad in a record. -/
def answers (log : List Request) : List (Except KeypadError UInt8) := log.filterMap Request.answer?

theorem answers_append (log log' : List Request) :
    answers (log ++ log') = answers log ++ answers log' :=
  List.filterMap_append

/-- The instructions that ask for a key. -/
def Instruction.asksKey : Instruction → Bool
  | .skipPressed _ | .skipNotPressed _ | .waitKey _ => true
  | _ => false

/-- What a scripted keypad answers to query number `j`, counted from zero. -/
def Keypad.entry (keys : List (Option UInt8)) (j : Nat) : Except KeypadError UInt8 :=
  match keys[j]? with
  | some (some key) => .ok key
  | some none => .error .noKey
  | none => .error .quit

theorem Keypad.query_scripted (keys : List (Option UInt8)) :
    (scripted keys).query = (entry keys 0, scripted keys.tail) := by
  rcases keys with _ | ⟨_ | key, rest⟩ <;> rfl

/-- `pad` is the keypad of the host: it answers the queries, and no other call changes it. -/
structure Host.UsesKeypad (host : Host ε) (pad : ε → Keypad) : Prop where
  draw (grid : Grid) (e : ε) : pad (host.draw grid e).2 = pad e
  key (e : ε) : ((host.key e).1, pad (host.key e).2) = (pad e).query
  cue (e : ε) : pad (host.cue e).2 = pad e

/-- A keypad and the answers it has given, after a request. -/
def Keypad.serve (s : Keypad × List (Except KeypadError UInt8)) :
    Request → Keypad × List (Except KeypadError UInt8)
  | .key _ => (s.1.query.2, s.2 ++ [s.1.query.1])
  | _ => s

theorem Keypad.foldl_serve (keys : List (Option UInt8))
    (answers : List (Except KeypadError UInt8)) (requests : List Request) :
    requests.foldl serve (scripted keys, answers) =
      (scripted (keys.drop (requests.countP Request.isKey)),
        answers ++ (List.range (requests.countP Request.isKey)).map (entry keys)) := by
  induction requests generalizing keys answers with
  | nil => simp
  | cons request requests ih =>
    cases request with
    | draw | cue => exact ih keys answers
    | key answer =>
      have hentry : entry keys.tail = fun j ↦ entry keys (j + 1) := by
        funext j
        rw [entry, entry, List.getElem?_tail]
      rw [List.foldl_cons, serve, query_scripted, ih, List.countP_cons_of_pos rfl,
        List.range_succ_eq_map, List.map_cons, List.map_map, List.append_assoc, hentry,
        List.drop_tail]
      rfl

theorem Host.UsesKeypad.follows {host : Host ε} {pad : ε → Keypad} (h : host.UsesKeypad pad) :
    host.recording.Follows (fun e ↦ (pad e.1, answers e.2)) Keypad.serve where
  draw grid e := by
    show (pad (host.draw grid e.1).2, answers (e.2 ++ [Request.draw grid])) = _
    rw [h.draw, answers_append]
    exact congrArg (Prod.mk _) (List.append_nil _)
  key e := by
    show (pad (host.key e.1).2, answers (e.2 ++ [Request.key (host.key e.1).1])) = _
    rw [answers_append, Keypad.serve, ← h.key]
    rfl
  cue e := by
    show (pad (host.cue e.1).2, answers (e.2 ++ [Request.cue])) = _
    rw [h.cue, answers_append]
    exact congrArg (Prod.mk _) (List.append_nil _)

namespace Computer

open Instruction

/-- Whether the instruction at the program counter is one that asks for a key. -/
def asksKey (c : Computer ε) : Bool := (decode? c.machine.fetch).any Instruction.asksKey

/-- How many of the first `n` cycles execute an instruction that asks for a key. -/
def keyQueries (host : Host ε) (n : Nat) (c : Computer ε) : Nat :=
  (List.range n).countP fun k ↦ (cycles host k c).asksKey

theorem countP_requests (host : Host ε) (c : Computer ε) :
    (c.requests host).countP Request.isKey = if c.asksKey then 1 else 0 := by
  have htimer : ∀ c : Computer ε, c.timerRequests.countP Request.isKey = 0 := by
    intro c
    unfold timerRequests
    split <;> rfl
  have hstep : (c.stepRequests host).countP Request.isKey = if c.asksKey then 1 else 0 := by
    rw [stepRequests, asksKey]
    cases decode? c.machine.fetch with
    | none => rfl
    | some i => cases i <;> rfl
  rw [requests, List.countP_append, hstep]
  rcases c.step host with ⟨halt | _, c₁⟩
  · rfl
  · exact congrArg (_ + ·) (htimer c₁)

theorem countP_cyclesRequests (host : Host ε) (n : Nat) (c : Computer ε) :
    (cyclesRequests host n c).countP Request.isKey = keyQueries host n c := by
  induction n with
  | zero => rfl
  | succ n ih =>
    rw [cyclesRequests_succ, List.countP_append, ih, countP_requests, keyQueries, keyQueries,
      List.range_succ, List.countP_append, List.countP_singleton]

/-- A scripted keypad hands out its entries one query after the other. -/
theorem cycles_scripted {host : Host ε} {pad : ε → Keypad} (h : host.UsesKeypad pad) (n : Nat)
    {c : Computer ε} {keys : List (Option UInt8)} (hk : pad c.outside = .scripted keys) :
    answers (trace host n c) = (List.range (keyQueries host n c)).map (Keypad.entry keys) ∧
      pad (cycles host n c).outside = .scripted (keys.drop (keyQueries host n c)) := by
  have hseen : (cycles host.recording n c.recorded).outside.1 = (cycles host n c).outside :=
    congrArg outside (cycles_seen host.recording_shows n c.recorded)
  have hlog : cyclesRequests host.recording n c.recorded = cyclesRequests host n c :=
    (cyclesRequests_seen host.recording_shows n c.recorded).symm
  have hserved : (pad (cycles host n c).outside, answers (trace host n c)) =
      (.scripted (keys.drop (keyQueries host n c)),
        (List.range (keyQueries host n c)).map (Keypad.entry keys)) := by
    calc (pad (cycles host n c).outside, answers (trace host n c))
      _ = (pad (cycles host.recording n c.recorded).outside.1, answers (trace host n c)) := by
        rw [hseen]
      _ = (cyclesRequests host.recording n c.recorded).foldl Keypad.serve (pad c.outside, []) :=
        cycles_follows h.follows n c.recorded
      _ = _ := by
        rw [hlog, hk, Keypad.foldl_serve, countP_cyclesRequests, List.nil_append]
  exact ⟨congrArg Prod.snd hserved, congrArg Prod.fst hserved⟩

theorem grid_step_draw (host : Host ε) {c : Computer ε} {x y : Register} {rows : Fin 16}
    (hi : decode? c.machine.fetch = some (.draw x y rows)) : (c.step host).2.machine.grid =
      (c.machine.grid.drawSprite (c.machine.memory.getBlock c.machine.i rows) (c.machine.reg x)
        (c.machine.reg y)).1 := by
  obtain ⟨grid, collision, hg, hd⟩ := c.machine.draw_cases x y rows
  rw [step_of_decode (decode_eq_ok_iff.2 hi), Machine.execute, hd, perform_drawn, hg]
  rfl

/-- The grid that a drawing offers is that of the machine it leaves, whether or not the display
takes it. -/
theorem stepRequests_draw (host : Host ε) {c : Computer ε} {x y : Register} {rows : Fin 16}
    (hi : decode? c.machine.fetch = some (.draw x y rows)) :
    c.stepRequests host = [.draw (c.step host).2.machine.grid] := by
  rw [grid_step_draw host hi, stepRequests, hi]
  rfl

/-! ## All the requests of a run -/

/-- What is asked of the devices in `n` cycles, whatever the cycles answer. -/
structure Traced (host : Host ε) (n : Nat) (c : Computer ε) : Prop where
  /-- The record changes nothing about what is recorded. -/
  seen : (cycles host.recording n c.recorded).seen id Prod.fst = cycles host n c
  /-- One cycle after the other asks for what its instruction and its timers ask for. -/
  trace : trace host n c = cyclesRequests host n c
  /-- A drawing offers all the pixels of the grid that it leaves. -/
  drawn : ∀ k x y rows, decode? (cycles host k c).machine.fetch = some (.draw x y rows) →
    ∃ grid : Grid, (cycles host k c).stepRequests host = [.draw grid] ∧
      ((cycles host k c).step host).2.machine.grid = grid ∧ grid.frame.size = 2048
  /-- The key instructions get the entries of a scripted keypad in order, and once there are no more
  they are asked to quit. -/
  scripted : ∀ (pad : ε → Keypad) (keys : List (Option UInt8)), host.UsesKeypad pad →
    pad c.outside = .scripted keys →
    answers (Computer.trace host n c) =
        (List.range (keyQueries host n c)).map (Keypad.entry keys) ∧
      ∃ left, pad (cycles host n c).outside = .scripted left ∧
        left = keys.drop (keyQueries host n c) ∧
        left.length = keys.length - min keys.length (keyQueries host n c)

/-- Cycles ask the devices for what their instructions and timers need, and for nothing else. -/
theorem cycles_traced (host : Host ε) (n : Nat) (c : Computer ε) : Traced host n c where
  seen := cycles_seen host.recording_shows n c.recorded
  trace := trace_eq host n c
  drawn k _ _ _ hi := ⟨_, stepRequests_draw host hi, rfl, Grid.size_frame _⟩
  scripted pad keys h hk := by
    obtain ⟨hanswers, hpad⟩ := cycles_scripted h n hk
    refine ⟨hanswers, _, hpad, rfl, ?_⟩
    rw [List.length_drop]
    omega

/-- The program `F00A F018 D005 E09E` with a keypad that has a key at the second query only. -/
def waiting : Computer Bench :=
  ((onBench (.scripted [none, some 1])).load
    (.ofBytes [0xF0, 0x0A, 0xF0, 0x18, 0xD0, 0x05, 0xE0, 0x9E])).2

theorem bench_usesKeypad : Bench.host.UsesKeypad Bench.keypad where
  draw _ _ := rfl
  key _ := rfl
  cue _ := rfl

/-- The wait asks twice, the check of a key finds the script at its end, and nothing is left
of it. -/
theorem cycles_traced_waiting :
    answers (trace Bench.host 5 waiting) = [.error .noKey, .ok 1, .error .quit] ∧
      (cycles Bench.host 5 waiting).outside.keypad = .scripted [] := by
  have hqueries : keyQueries Bench.host 5 waiting = 3 := by decide +kernel
  obtain ⟨hanswers, left, hpad, hleft, _⟩ := (cycles_traced Bench.host 5 waiting).scripted
    Bench.keypad [none, some 1] bench_usesKeypad rfl
  rw [hqueries] at hanswers hleft
  rw [hleft] at hpad
  exact ⟨hanswers, hpad⟩

end Computer

end Chip8
