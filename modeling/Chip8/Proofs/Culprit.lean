import Chip8.Machine.Dump
import Chip8.Proofs.Decoding
import Chip8.Proofs.Invariant
import Chip8.Proofs.RunLoop
import Mathlib.Control.Monad.Basic

/-! # Errors and their culprits

A run that ends with an error leaves the machine where the error can be seen: at the instruction
that failed, behind the drawing that was not shown, or with the sound about to end. -/

namespace Chip8

/-- Errors that come up before their instruction has done anything. -/
def Error.inPlace : Error → Bool
  | .unknownOpcode _ | .stackOverflow _ | .stackUnderflow _ | .keypad _ => true
  | _ => false

/-- The state line begins with the program counter and the word there. -/
theorem Machine.dump_eq (m : Machine) : ∃ rest, m.dump =
    "pc=" ++ Numeral.marked 3 m.pc.toNat ++ " op=" ++ Numeral.marked 4 m.fetch.toNat ++
      " i=" ++ rest := by
  have hrest : ∀ front i sp dt st v : String,
      front ++ i ++ " sp=" ++ sp ++ " dt=" ++ dt ++ " st=" ++ st ++ " v=[" ++ v ++ "]" =
        front ++ (i ++ " sp=" ++ sp ++ " dt=" ++ dt ++ " st=" ++ st ++ " v=[" ++ v ++ "]") := by
    intros
    simp only [String.append_assoc]
  exact ⟨_, hrest _ _ _ _ _ _⟩

namespace Computer

open Instruction

variable {ε : Type} {host : Host ε} {pace : Pace ε} {c c' : Computer ε}

/-- What can be seen of an error on the computer that is left. -/
def Culprit (host : Host ε) (c : Computer ε) : Error → Prop
  | .unknownOpcode word =>
    c.machine.fetch = word ∧ decode word = .error (.unknownOpcode word)
  | .stackOverflow addr => c.machine.sp = 15 ∧ c.machine.fetch.toNat = 0x2000 + addr.toNat
  | .stackUnderflow pc => c.machine.sp = 0 ∧ c.machine.pc = pc ∧ c.machine.fetch = 0x00EE
  /- The keypad cannot be used, or has failed in its own words. -/
  | .keypad e => (e = .unavailable ∨ ∃ d, e = .device d) ∧
      (∃ outside, host.key outside = (.error e, c.outside)) ∧ ∃ i x,
      decode c.machine.fetch = .ok i ∧ (i = .skipPressed x ∨ i = .skipNotPressed x ∨ i = .waitKey x)
  /- The machine has already gone on to the next word. -/
  | .display d => (∃ outside, host.draw c.machine.grid outside = (.error d, c.outside)) ∧
      ∃ x y rows, decode (c.machine.memory.word (c.machine.pc - 2)) = .ok (.draw x y rows)
  | .sound d => (∃ outside, host.cue outside = (.error d, c.outside)) ∧ c.machine.sound = 1
  /- No run ends like this. -/
  | .quit | .load _ | .loadOverflow .. => False

theorem culprit_setRunState {e : Error} {s : RunState} (h : Culprit host c e) :
    Culprit host (c.setRunState s) e := by
  cases e <;> exact h

/-! ## Failing cycles -/

theorem Failure.culprit {e : Error} (h : Failure host c e c') (hq : e ≠ .quit) :
    Culprit host c' e := by
  cases h with
  | unknown hd =>
    obtain ⟨_, rfl⟩ := decode_eq_error_iff.1 hd
    exact ⟨rfl, hd⟩
  | overflow hi htop => exact ⟨htop, toNat_of_call (decode_eq_ok_iff.1 hi)⟩
  | underflow hi h0 => exact ⟨h0, rfl, (word_of_decode? (decode_eq_ok_iff.1 hi) rfl).symm⟩
  | @keypad i x k outside hi hasks hk hne =>
    cases k with
    | noKey => exact absurd rfl hne
    | quit => exact absurd rfl hq
    | unavailable => exact ⟨.inl rfl, ⟨_, hk⟩, i, x, hi, hasks⟩
    | device d => exact ⟨.inr ⟨d, rfl⟩, ⟨_, hk⟩, i, x, hi, hasks⟩
  | @display x y rows m d outside hi hx hd =>
    obtain ⟨grid, collision, _, hm⟩ := c.machine.draw_cases x y rows
    obtain rfl := Effect.drawn.inj (hx.symm.trans hm)
    refine ⟨⟨_, hd⟩, x, y, rows, ?_⟩
    have hpc : c.machine.pc + 2 - 2 = c.machine.pc := UInt16.add_sub_cancel _ _
    show decode (c.machine.memory.word (c.machine.pc + 2 - 2)) = _
    rw [hpc]
    exact hi

theorem Failure.fetch_eq {e : Error} (h : Failure host c e c') (he : e.inPlace = true) :
    c'.machine.fetch = c.machine.fetch := by
  cases h with
  | unknown | overflow | underflow | keypad => rfl
  | display => cases he

/-- A cycle that fails other than by a request to quit leaves its culprit. -/
theorem cycle_culprit {e : Error} (h : c.cycle host = (.error (.error e), c')) (hq : e ≠ .quit) :
    Culprit host c' e ∧ (e.inPlace = true → c'.machine.fetch = c.machine.fetch) := by
  obtain ⟨halt, c₁, hs, hc⟩ | ⟨c₁, d, outside, _, hone, hcue, hc⟩ | ⟨_, _, _, _, hc⟩ :=
    cycle_cases host c
  · cases h.symm.trans hc
    have hf := step_failure hs
    exact ⟨hf.culprit hq, hf.fetch_eq⟩
  · cases h.symm.trans hc
    exact ⟨⟨⟨_, hcue⟩, hone⟩, nofun⟩
  · cases h.symm.trans hc

/-! ## Failing runs -/

/-- The tick with which a run is over, for a run that ends. -/
theorem run_ends {limit : Nat} {result : Except Halt Unit}
    (h : c.run host pace limit = some (result, c')) :
    ∃ k c₁, FirstEnd host pace c k ∧ LoopEnds host pace c k result c₁ ∧
      c' = settle result (c₁.setRunState .running) := by
  by_cases hend : ∃ n, EndsAt host pace c (n + 1)
  · obtain ⟨n, hend⟩ := hend
    obtain ⟨k, _, hfirst⟩ := firstEnd_of_endsAt hend
    obtain ⟨result', c₁, hc, hrun⟩ := run_of_firstEnd hfirst
    rw [hrun] at h
    split at h <;> cases h
    exact ⟨k, c₁, hfirst, hc, rfl⟩
  · rw [run_of_forall_not_endsAt fun n hn ↦ hend ⟨n, hn⟩] at h
    cases h

/-- A run of `c` has ended with the error `e` and left `c'`. -/
structure Blamed (host : Host ε) (pace : Pace ε) (c : Computer ε) (e : Error) (c' : Computer ε) :
    Prop where
  culprit : Culprit host c' e
  /-- The error is that of the last cycle. Where it has come up before the instruction has done
  anything, the word of that instruction is the one that the state line shows. -/
  failing : ∃ k, FirstEnd host pace c k ∧
    ((atTick host pace c k).cycle host).1 = .error (.error e) ∧
    (e.inPlace = true → ∃ rest, c'.machine.dump =
      "pc=" ++ Numeral.marked 3 c'.machine.pc.toNat ++
        " op=" ++ Numeral.marked 4 (atTick host pace c k).machine.fetch.toNat ++ " i=" ++ rest)

/-- A run ends well, or with an error whose culprit can be seen. -/
theorem run_blames {options : Options} {entropy : UInt64} {outside : ε} {limit : Nat}
    {result : Except Halt Unit} (hc : Reaches host ⟨.fresh options entropy, outside⟩ c)
    (h : c.run host pace limit = some (result, c')) :
    result = .ok () ∨ ∃ e, result = .error (.error e) ∧ Blamed host pace c e c' := by
  have hfresh := Machine.fresh_sound options entropy
  obtain ⟨_, hh⟩ := hc.history hfresh
  have hfault : result ≠ .error .fault :=
    make_ne_fault (hh.sound hfresh) (show Call.make host c (.run pace limit) = _ from h)
  obtain ⟨k, c₁, hfirst, ⟨_, rfl, _⟩ | ⟨_, halt, hcycle, rfl⟩, rfl⟩ := run_ends h
  · exact .inl rfl
  cases halt with
  | fault => exact absurd rfl hfault
  | error e =>
    by_cases hq : e = .quit
    · exact .inl (by rw [hq]; rfl)
    obtain ⟨hculprit, hplace⟩ := cycle_culprit hcycle hq
    have hsettled : settle (reported (.error e)) (c₁.setRunState .running) =
        c₁.setRunState .stopped := settle_eq hfault
    rw [hsettled, reported_error hq]
    refine .inr ⟨e, rfl, culprit_setRunState hculprit, k, hfirst, by rw [hcycle], ?_⟩
    intro he
    rw [← hplace he]
    exact (c₁.setRunState .stopped).machine.dump_eq

/-- The program `2200`, which calls itself. -/
def callingItself : Computer Bench := ((onBench .null).load (.ofBytes [0x22, 0x00])).2

/-- The sixteenth call finds no slot, and is to blame. -/
theorem run_blames_overflow : ∃ c',
    callingItself.run Bench.host Bench.pace 16 =
        some (.error (.error (.stackOverflow 0x200)), c') ∧
      Blamed Bench.host Bench.pace callingItself (.stackOverflow 0x200) c' := by
  have hrun : (callingItself.run Bench.host Bench.pace 16).map Prod.fst =
      some (.error (.error (.stackOverflow 0x200))) := by decide +kernel
  obtain ⟨⟨_, c'⟩, hr, rfl⟩ := Option.map_eq_some_iff.1 hrun
  have hreaches : Reaches Bench.host (onBench .null) callingItself := .call (.load _) .refl rfl
  obtain hok | ⟨e, he, hblamed⟩ := run_blames hreaches hr
  · cases hok
  · cases he
    exact ⟨c', hr, hblamed⟩

end Computer

end Chip8
