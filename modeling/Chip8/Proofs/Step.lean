import Chip8.Computer
import Chip8.Proofs.Effect

/-! # Steps, cycles and turns

How a step, a cycle and a turn of the run loop end. A step that fails does so in one of five ways,
each of which tells the error and the computer that is left; everything that is proved of failing
steps starts from them. A cycle, a turn and a load end in one of three ways each. -/

namespace Chip8.Computer

open Instruction

variable {ε : Type} {host : Host ε} {c c' : Computer ε}

theorem step_of_decode {i : Instruction} (h : decode c.machine.fetch = .ok i) :
    c.step host = c.perform host (c.machine.execute i) := by
  simp only [step, h]

theorem step_of_unknown {e : Error} (h : decode c.machine.fetch = .error e) :
    c.step host = (.error (.error e), c) := by
  simp only [step, h]

/-- A drawing is done whether or not the display takes it, and ends as the display answers. -/
theorem perform_drawn (host : Host ε) (c : Computer ε) (m : Machine) :
    c.perform host (.drawn m) =
      ((host.draw m.grid c.outside).1.mapError fun e ↦ .error (.display e),
        ⟨m, (host.draw m.grid c.outside).2⟩) := by
  rw [perform]
  rcases host.draw m.grid c.outside with ⟨_ | _, _⟩ <;> rfl

/-- How an instruction ends that has been given an answer of the keypad, and the machine it leaves:
`m` where the answer is of no use. -/
def answered (m : Machine) (resume : Option UInt8 → Machine) :
    Except KeypadError UInt8 → Except Halt Unit × Machine
  | .ok key => (.ok (), resume (some key))
  | .error .noKey => (.ok (), resume none)
  | .error e => (.error (.error (.ofKeypad e)), m)

/-- A query is made once, and nothing but its answer counts. -/
theorem perform_asking (host : Host ε) (c : Computer ε) (resume : Option UInt8 → Machine) :
    c.perform host (.asking resume) =
      ((answered c.machine resume (host.key c.outside).1).1,
        ⟨(answered c.machine resume (host.key c.outside).1).2, (host.key c.outside).2⟩) := by
  rw [perform]
  rcases host.key c.outside with ⟨(_ | _) | _, _⟩ <;> rfl

/-- What holds of the machine before, and of all that its effect may leave, holds afterwards. -/
theorem perform_leaves {P : Machine → Prop} {effect : Effect} (h : effect.Leaves P)
    (hc : P c.machine) : P (c.perform host effect).2.machine := by
  cases effect with
  | done m => exact h
  | refused e => exact hc
  | fault m => exact h
  | drawn m =>
    simp only [perform]
    split <;> exact h
  | asking resume =>
    simp only [perform]
    split
    · exact h _
    · exact h none
    · exact hc

/-! ## Calls and returns -/

/-- A call where all slots are taken. -/
theorem step_call_full {addr : UInt16} (hi : decode c.machine.fetch = .ok (.call addr))
    (h : c.machine.sp = Machine.stackTop) :
    c.step host = (.error (.error (.stackOverflow addr)), c) := by
  rw [step_of_decode hi, Machine.execute, Machine.call, if_pos h]
  rfl

/-- A call with a slot to spare. -/
theorem step_call {addr : UInt16} (hi : decode c.machine.fetch = .ok (.call addr))
    (h : c.machine.sp.toNat + 1 < 16) :
    c.step host = (.ok (), { c with machine := { c.machine with
      sp := c.machine.sp + 1
      stack := c.machine.stack.set (c.machine.sp.toNat + 1) c.machine.pc h
      pc := addr } }) := by
  rw [step_of_decode hi, Machine.execute, Machine.call_of_lt h]
  rfl

/-- A return where no call is open. -/
theorem step_ret_empty (hi : decode c.machine.fetch = .ok .ret) (h : c.machine.sp = 0) :
    c.step host = (.error (.error (.stackUnderflow c.machine.pc)), c) := by
  rw [step_of_decode hi, Machine.execute, Machine.ret, if_pos h]
  rfl

/-- A return from an open call. -/
theorem step_ret (hi : decode c.machine.fetch = .ok .ret) (h0 : c.machine.sp ≠ 0)
    (h : c.machine.sp.toNat < 16) :
    c.step host = (.ok (), { c with machine := { c.machine with
      pc := c.machine.stack[c.machine.sp.toNat] + 2
      sp := c.machine.sp - 1 } }) := by
  rw [step_of_decode hi, Machine.execute, Machine.ret_of_lt h0 h]
  rfl

/-! ## Failing steps -/

/-- The steps of a computer that fail, with the error and the computer that is left. -/
inductive Failure (host : Host ε) (c : Computer ε) : Error → Computer ε → Prop
  /-- The word at the program counter is no instruction. -/
  | unknown {e : Error} : decode c.machine.fetch = .error e → Failure host c e c
  | overflow {addr : UInt16} : decode c.machine.fetch = .ok (.call addr) →
      c.machine.sp = Machine.stackTop → Failure host c (.stackOverflow addr) c
  | underflow : decode c.machine.fetch = .ok .ret → c.machine.sp = 0 →
      Failure host c (.stackUnderflow c.machine.pc) c
  /-- The keypad was asked and gave no usable answer. -/
  | keypad {i : Instruction} {x : Register} {k : KeypadError} {outside : ε} :
      decode c.machine.fetch = .ok i → i = .skipPressed x ∨ i = .skipNotPressed x ∨ i = .waitKey x →
      host.key c.outside = (.error k, outside) → k ≠ .noKey →
      Failure host c (.ofKeypad k) { c with outside }
  /-- The display was offered the grid and did not take it. -/
  | display {x y : Register} {rows : Fin 16} {m : Machine} {d : DeviceError} {outside : ε} :
      decode c.machine.fetch = .ok (.draw x y rows) → c.machine.draw x y rows = .drawn m →
      host.draw m.grid c.outside = (.error d, outside) →
      Failure host c (.display d) ⟨m, outside⟩

theorem perform_failure {i : Instruction} {e : Error} (hi : decode c.machine.fetch = .ok i)
    (h : c.perform host (c.machine.execute i) = (.error (.error e), c')) :
    Failure host c e c' := by
  have heff := c.machine.hasEffect_execute i
  generalize hx : c.machine.execute i = effect at h heff
  cases heff with
  | done | fault => cases h
  | underflow h0 =>
    cases h
    exact .underflow hi h0
  | overflow htop =>
    cases h
    exact .overflow hi htop
  | drawn =>
    rw [perform] at h
    split at h
    · cases h
    · next hd =>
      cases h
      exact .display hi hx hd
  | asking hasks =>
    rw [perform] at h
    split at h
    · cases h
    · cases h
    · next hne hk =>
      cases h
      exact .keypad hi hasks hk hne

/-- A step fails only in the ways that are listed. -/
theorem step_failure {e : Error} (h : c.step host = (.error (.error e), c')) :
    Failure host c e c' := by
  cases hd : decode c.machine.fetch with
  | error e' =>
    rw [step_of_unknown hd] at h
    cases h
    exact .unknown hd
  | ok i =>
    rw [step_of_decode hd] at h
    exact perform_failure hd h

/-! ## Cycles -/

/-- The timers count down, with a cue where the sound is about to end; only the cue can fail. -/
theorem countDown_cases (host : Host ε) (c : Computer ε) :
    (c.machine.sound ≠ 1 ∧
      c.countDown host = (.ok (), { c with machine := c.machine.decayTimers })) ∨
    (c.machine.sound = 1 ∧ ∃ outside, host.cue c.outside = (.ok (), outside) ∧
      c.countDown host = (.ok (), ⟨c.machine.decayTimers, outside⟩)) ∨
    (c.machine.sound = 1 ∧ ∃ d outside, host.cue c.outside = (.error d, outside) ∧
      c.countDown host = (.error (.error (.sound d)), { c with outside })) := by
  by_cases h : c.machine.sound = 1
  · refine .inr ?_
    rcases hq : host.cue c.outside with ⟨d | _, outside⟩
    · exact .inr ⟨h, d, outside, rfl, by simp only [countDown, if_pos h, hq]⟩
    · exact .inl ⟨h, outside, rfl, by simp only [countDown, if_pos h, hq]⟩
  · exact .inl ⟨h, by rw [countDown, if_neg h]⟩

/-- A cycle fails with its step, or with the cue behind it, or counts the timers down. -/
theorem cycle_cases (host : Host ε) (c : Computer ε) :
    (∃ halt c₁, c.step host = (.error halt, c₁) ∧ c.cycle host = (.error halt, c₁)) ∨
    (∃ c₁ d outside, c.step host = (.ok (), c₁) ∧ c₁.machine.sound = 1 ∧
      host.cue c₁.outside = (.error d, outside) ∧
      c.cycle host = (.error (.error (.sound d)), { c₁ with outside })) ∨
    (∃ c₁ c₂, c.step host = (.ok (), c₁) ∧ c₁.countDown host = (.ok (), c₂) ∧
      c.cycle host = (.ok c.machine.fetch, c₂)) := by
  rcases hs : c.step host with ⟨halt | _, c₁⟩
  · exact .inl ⟨halt, c₁, rfl, by simp only [cycle, hs]⟩
  refine .inr ?_
  obtain ⟨_, hd⟩ | ⟨_, _, _, hd⟩ | ⟨hone, d, outside, hq, hd⟩ := countDown_cases host c₁
  · exact .inr ⟨c₁, _, rfl, hd, by simp only [cycle, hs, hd]⟩
  · exact .inr ⟨c₁, _, rfl, hd, by simp only [cycle, hs, hd]⟩
  · exact .inl ⟨c₁, d, outside, rfl, hone, hq, by simp only [cycle, hs, hd]⟩

/-! ## Turns -/

/-- The computer when the next tick is over. -/
def ticked (pace : Pace ε) (c : Computer ε) : Computer ε :=
  { c with outside := pace.tick c.outside }

/-- What a run answers where a cycle has failed: to quit is no failure. -/
def reported : Halt → Except Halt Unit
  | .error .quit => .ok ()
  | h => .error h

theorem reported_error {e : Error} (h : e ≠ .quit) : reported (.error e) = .error (.error e) := by
  cases e <;> first | rfl | exact absurd rfl h

theorem reported_ne_fault {halt : Halt} (h : halt ≠ .fault) : reported halt ≠ .error .fault := by
  unfold reported
  split
  · nofun
  · exact fun he ↦ h (Except.error.inj he)

/-- A turn sees a stop request after its tick, or performs a cycle that succeeds or fails. -/
theorem turn_cases (host : Host ε) (pace : Pace ε) (c : Computer ε) :
    (pace.stopRequested (c.ticked pace).outside = true ∧
      c.turn host pace = .over (.ok ()) (c.ticked pace)) ∨
    (pace.stopRequested (c.ticked pace).outside = false ∧ ∃ word c',
      (c.ticked pace).cycle host = (.ok word, c') ∧ c.turn host pace = .going c') ∨
    (pace.stopRequested (c.ticked pace).outside = false ∧ ∃ halt c',
      (c.ticked pace).cycle host = (.error halt, c') ∧
        c.turn host pace = .over (reported halt) c') := by
  simp only [turn, ticked]
  cases pace.stopRequested (pace.tick c.outside) with
  | true => exact .inl ⟨rfl, rfl⟩
  | false =>
    refine .inr ?_
    rcases Computer.cycle host ⟨c.machine, pace.tick c.outside⟩ with ⟨halt | word, c'⟩
    · refine .inr ⟨rfl, halt, c', rfl, ?_⟩
      rcases halt with (_ | _) | _ <;> rfl
    · exact .inl ⟨rfl, word, c', rfl, rfl⟩

/-! ## Loads -/

/-- A load fails with its source, or with a program that is too long, or puts the program into
memory. A failed load changes nothing. -/
theorem load_cases (c : Computer ε) (source : Source) :
    (∃ d, source.readAll = .error d ∧ c.load source = (.error (.load d), c)) ∨
    (∃ data, source.readAll = .ok data ∧ Memory.available c.machine.loadOffset < data.length ∧
      c.load source = (.error (.loadOverflow data.length
        (Memory.available c.machine.loadOffset) c.machine.loadOffset), c)) ∨
    (∃ data, source.readAll = .ok data ∧ data.length ≤ Memory.available c.machine.loadOffset ∧
      c.load source = (.ok data.length, { c with machine := { c.machine with
        memory := .setBlock c.machine.loadOffset data c.machine.memory } })) := by
  cases hr : source.readAll with
  | error d => exact .inl ⟨d, rfl, by simp only [load, Machine.load, Memory.load, hr, Except.map]⟩
  | ok data =>
    refine .inr ?_
    obtain hlt | hle := Nat.lt_or_ge (Memory.available c.machine.loadOffset) data.length
    · refine .inl ⟨data, rfl, hlt, ?_⟩
      simp only [load, Machine.load, Memory.load, hr, Memory.write, if_neg (Nat.not_le_of_lt hlt),
        Except.map]
    · refine .inr ⟨data, rfl, hle, ?_⟩
      simp only [load, Machine.load, Memory.load, hr, Memory.write, if_pos hle, Except.map]

end Chip8.Computer
