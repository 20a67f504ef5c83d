import Chip8.Proofs.Trace

/-! # Addresses

Only the low twelve bits of an address count. Machines whose program counters, index registers and
open call sites differ in the high bits alone do the same, and still differ in no more when they
have done it. -/

namespace Chip8

namespace Memory

/-! ## Memory at the same places -/

variable {a b : UInt16}

theorem place_eq_iff : place a = place b ↔ a.toNat % 4096 = b.toNat % 4096 := by
  rw [place, place, Fin.mk.injEq]

theorem place_add (h : place a = place b) (k : UInt16) : place (a + k) = place (b + k) := by
  rw [place_eq_iff] at h ⊢
  rw [UInt16.toNat_add, UInt16.toNat_add]
  omega

theorem get_congr (m : Memory) (h : place a = place b) : m.get a = m.get b := by
  simp only [get, h]

theorem set_congr (m : Memory) (h : place a = place b) (byte : UInt8) :
    m.set a byte = m.set b byte := by
  simp only [set, h]

theorem word_congr (m : Memory) (h : place a = place b) : m.word a = m.word b := by
  rw [word, word, m.get_congr h, m.get_congr (place_add h 1)]

theorem getBlock_congr (m : Memory) (h : place a = place b) (n : Nat) :
    m.getBlock a n = m.getBlock b n := by
  induction n generalizing a b with
  | zero => rfl
  | succ n ih => rw [getBlock, getBlock, m.get_congr h, ih (place_add h 1)]

theorem setBlock_congr (m : Memory) (h : place a = place b) (bytes : List UInt8) :
    m.setBlock a bytes = m.setBlock b bytes := by
  induction bytes generalizing a b m with
  | nil => rfl
  | cons byte bytes ih => rw [setBlock, setBlock, m.set_congr h, ih _ (place_add h 1)]

end Memory

open Memory (place)

/-! ## Machines -/

/-- Machines that agree but for the high bits of the addresses in them. Slots above the stack
pointer count for nothing, and neither do the load offset and the run state. -/
structure Machine.Alike (m m' : Machine) : Prop where
  memory : m.memory = m'.memory
  v : m.v = m'.v
  i : place m.i = place m'.i
  pc : place m.pc = place m'.pc
  slots : ∀ k : Fin 16, 0 < k.val → k.val ≤ m.sp.toNat → place m.stack[k] = place m'.stack[k]
  sp : m.sp = m'.sp
  sp_le : m.sp.toNat ≤ 15
  delay : m.delay = m'.delay
  sound : m.sound = m'.sound
  grid : m.grid = m'.grid
  random : m.random = m'.random

/-- The same error; an empty stack may be reported from two places that are the same. -/
inductive Error.Alike : Error → Error → Prop
  | same (e : Error) : Alike e e
  | underflow {pc pc' : UInt16} : place pc = place pc' →
      Alike (.stackUnderflow pc) (.stackUnderflow pc')

/-- Effects of the same kind on machines that are alike. -/
inductive Effect.Alike : Effect → Effect → Prop
  | done {m m' : Machine} : m.Alike m' → Alike (.done m) (.done m')
  | refused {e e' : Error} : e.Alike e' → Alike (.refused e) (.refused e')
  | drawn {m m' : Machine} : m.Alike m' → Alike (.drawn m) (.drawn m')
  | asking {resume resume' : Option UInt8 → Machine} :
      (∀ key, (resume key).Alike (resume' key)) → Alike (.asking resume) (.asking resume')

namespace Machine

variable {m m' : Machine}

namespace Alike

theorem refl (h : m.sp.toNat ≤ 15) : m.Alike m :=
  ⟨rfl, rfl, rfl, rfl, fun _ _ _ ↦ rfl, rfl, h, rfl, rfl, rfl, rfl⟩

theorem fetch_eq (h : m.Alike m') : m.fetch = m'.fetch := by
  rw [fetch, fetch, h.memory, Memory.word_congr _ h.pc]

theorem reg_eq (h : m.Alike m') (r : Register) : m.reg r = m'.reg r := by rw [reg, reg, h.v]

theorem advance (h : m.Alike m') : m.advance.Alike m'.advance :=
  { h with pc := Memory.place_add h.pc 2 }

theorem setReg (h : m.Alike m') (r : Register) (b : UInt8) : (m.setReg r b).Alike (m'.setReg r b) :=
  { h with v := by rw [Machine.setReg, Machine.setReg, h.v] }

theorem assign (h : m.Alike m') (r : Register) (b : UInt8) : (m.assign r b).Alike (m'.assign r b) :=
  (h.setReg r b).advance

theorem assignFlagged (h : m.Alike m') (r : Register) (b : UInt8) (flag : Bool) :
    (m.assignFlagged r b flag).Alike (m'.assignFlagged r b flag) :=
  (h.setReg flagRegister flag.toUInt8).assign r b

theorem skipIf (h : m.Alike m') (condition : Bool) :
    (m.skipIf condition).Alike (m'.skipIf condition) := by
  cases condition with
  | false => exact h.advance
  | true => exact h.advance.advance

theorem jump (h : m.Alike m') (addr : UInt16) :
    Machine.Alike { m with pc := addr } { m' with pc := addr } :=
  { h with pc := rfl }

theorem index (h : m.Alike m') {a b : UInt16} (hab : place a = place b) :
    Machine.Alike { m with i := a } { m' with i := b } :=
  { h with i := hab }

theorem registers (h : m.Alike m') (v : Vector UInt8 16) :
    Machine.Alike { m with v } { m' with v } :=
  { h with v := rfl }

theorem storeBytes (h : m.Alike m') (bytes : List UInt8) :
    (m.storeBytes bytes).Alike (m'.storeBytes bytes) := by
  refine Alike.advance { h with memory := ?_ }
  rw [h.memory, Memory.setBlock_congr _ h.i]

theorem loadRegisters (h : m.Alike m') (last : Register) :
    (m.loadRegisters last).Alike (m'.loadRegisters last) := by
  have hv : ∀ r, (if r ≤ last then m.memory.get (m.i + UInt16.ofNat r.val) else m.reg r) =
      if r ≤ last then m'.memory.get (m'.i + UInt16.ofNat r.val) else m'.reg r := by
    intro r
    rw [h.memory, Memory.get_congr _ (Memory.place_add h.i _), h.reg_eq]
  rw [Machine.loadRegisters, Machine.loadRegisters, funext hv]
  exact (h.registers _).advance

theorem takeKey (h : m.Alike m') (x : Register) (key : Option UInt8) :
    (m.takeKey x key).Alike (m'.takeKey x key) := by
  cases key with
  | none => exact h
  | some key => exact h.assign x key

theorem randomize (h : m.Alike m') (x : Register) (nn : UInt8) :
    (m.randomize x nn).Alike (m'.randomize x nn) := by
  have hnext : Machine.Alike { m with random := m.random.next.2 }
      { m' with random := m'.random.next.2 } :=
    { h with random := by rw [h.random] }
  rw [Machine.randomize, Machine.randomize, h.random]
  rw [h.random] at hnext
  exact hnext.assign x _

theorem decayTimers (h : m.Alike m') : m.decayTimers.Alike m'.decayTimers :=
  { h with
    delay := congrArg decay h.delay
    sound := congrArg decay h.sound }

/-! ### Calls, returns and drawings -/

theorem call (h : m.Alike m') (addr : UInt16) : (m.call addr).Alike (m'.call addr) := by
  by_cases htop : m.sp = stackTop
  · rw [Machine.call, Machine.call, if_pos htop, if_pos (h.sp ▸ htop)]
    exact .refused (.same _)
  have hle := h.sp_le
  have hlt : m.sp.toNat + 1 < 16 := by
    have hne : m.sp.toNat ≠ 15 := fun he ↦ htop (UInt8.toNat_inj.1 he)
    omega
  have hsp : (m.sp + 1).toNat = m.sp.toNat + 1 := toNat_add_one fun hmax ↦ by simp [hmax] at hlt
  rw [call_of_lt hlt, call_of_lt (h.sp ▸ hlt)]
  refine .done
    { h with sp := congrArg (· + 1) h.sp, pc := rfl, sp_le := ?bound, slots := ?slots }
  case bound =>
    show (m.sp + 1).toNat ≤ 15
    omega
  case slots =>
    intro k hpos hk
    have hslots := h.slots k hpos
    have hk' : k.val ≤ m.sp.toNat + 1 := hsp ▸ hk
    simp only [Fin.getElem_fin, Vector.getElem_set, ← h.sp] at hslots ⊢
    split
    · exact h.pc
    · exact hslots (by omega)

theorem ret (h : m.Alike m') : m.ret.Alike m'.ret := by
  by_cases h0 : m.sp = 0
  · rw [Machine.ret, Machine.ret, if_pos h0, if_pos (h.sp ▸ h0)]
    exact .refused (.underflow h.pc)
  have hle := h.sp_le
  have hsp : (m.sp - 1).toNat = m.sp.toNat - 1 := toNat_sub_one h0
  have hpos : 0 < m.sp.toNat := Nat.pos_of_ne_zero fun he ↦ h0 (UInt8.toNat_inj.1 he)
  have hlt : m.sp.toNat < 16 := by omega
  have hlt' : m'.sp.toNat < 16 := h.sp ▸ hlt
  have hslot : place m.stack[m.sp.toNat] = place m'.stack[m'.sp.toNat] := by
    have hslot := h.slots ⟨m.sp.toNat, hlt⟩ hpos (Nat.le_refl _)
    simp only [Fin.getElem_fin, ← h.sp] at hslot ⊢
    exact hslot
  rw [ret_of_lt h0 hlt, ret_of_lt (h.sp ▸ h0) hlt']
  refine .done { h with
    sp := congrArg (· - 1) h.sp, pc := Memory.place_add hslot 2, sp_le := ?bound, slots := ?slots }
  case bound =>
    show (m.sp - 1).toNat ≤ 15
    omega
  case slots =>
    intro k hpos hk
    have hk' : k.val ≤ m.sp.toNat - 1 := hsp ▸ hk
    exact h.slots k hpos (by omega)

theorem draw (h : m.Alike m') (x y : Register) (rows : Fin 16) :
    (m.draw x y rows).Alike (m'.draw x y rows) := by
  obtain ⟨grid, collision, hg, hd⟩ := m.draw_cases x y rows
  obtain ⟨grid', collision', hg', hd'⟩ := m'.draw_cases x y rows
  rw [h.grid, h.memory, Memory.getBlock_congr _ h.i, h.reg_eq, h.reg_eq] at hg
  cases hg.symm.trans hg'
  rw [hd, hd']
  have hgrid : Machine.Alike { m with grid } { m' with grid } := { h with grid := rfl }
  exact .drawn (hgrid.setReg _ _).advance

/-! ### Instructions -/

theorem execute (h : m.Alike m') (i : Instruction) : (m.execute i).Alike (m'.execute i) := by
  cases i with
  | clearScreen => exact .done (Alike.advance { h with grid := rfl })
  | ret => exact h.ret
  | call addr => exact h.call addr
  | jump addr => exact .done (h.jump addr)
  | jumpOffset addr =>
    rw [Machine.execute, Machine.execute, h.reg_eq]
    exact .done (h.jump _)
  | skipEqImm | skipNeImm | skipEqReg | skipNeReg =>
    simp only [Machine.execute, h.reg_eq]
    exact .done (h.skipIf _)
  | skipPressed | skipNotPressed =>
    simp only [Machine.execute, h.reg_eq]
    exact .asking fun _ ↦ h.skipIf _
  | setImm | addImm | copy | or | and | xor | getDelay =>
    simp only [Machine.execute, h.reg_eq, h.delay]
    exact .done (h.assign _ _)
  | add | sub | shiftRight | subN | shiftLeft =>
    simp only [Machine.execute, h.reg_eq]
    exact .done (h.assignFlagged _ _ _)
  | setIndex addr => exact .done (h.index rfl).advance
  | addIndex x =>
    rw [Machine.execute, Machine.execute, h.reg_eq]
    exact .done (h.index (Memory.place_add h.i _)).advance
  | fontChar x =>
    rw [Machine.execute, Machine.execute, h.reg_eq]
    exact .done (h.index rfl).advance
  | random x nn => exact .done (h.randomize x nn)
  | draw x y rows => exact h.draw x y rows
  | waitKey x => exact .asking (h.takeKey x)
  | setDelay x => exact .done (Alike.advance { h with delay := h.reg_eq x })
  | setSound x => exact .done (Alike.advance { h with sound := h.reg_eq x })
  | bcd x =>
    rw [Machine.execute, Machine.execute, h.reg_eq]
    exact .done (h.storeBytes _)
  | store x =>
    rw [Machine.execute, Machine.execute, registersUpTo, registersUpTo, h.v]
    exact .done (h.storeBytes _)
  | load x => exact .done (h.loadRegisters x)

end Alike

end Machine

namespace Computer

variable {ε α : Type} {host : Host ε} {pace : Pace ε} {c d : Computer ε}

/-! ## Computers -/

/-- Machines that are alike before the same outside. -/
structure Alike (c d : Computer ε) : Prop where
  machine : c.machine.Alike d.machine
  outside : c.outside = d.outside

/-- Two calls that end the same, with computers that are alike: both succeed with the same answer,
or both fail with the same error. -/
inductive EndAlike : Except Halt α × Computer ε → Except Halt α × Computer ε → Prop
  | ok {c d : Computer ε} (a : α) : c.Alike d → EndAlike (.ok a, c) (.ok a, d)
  | error {e e' : Error} {c d : Computer ε} : e.Alike e' → c.Alike d →
      EndAlike (.error (.error e), c) (.error (.error e'), d)

theorem EndAlike.alike {x y : Except Halt α × Computer ε} (h : EndAlike x y) : x.2.Alike y.2 := by
  cases h with
  | ok _ h => exact h
  | error _ h => exact h

namespace Alike

theorem perform (h : c.Alike d) {effect effect' : Effect} (he : effect.Alike effect') :
    EndAlike (c.perform host effect) (d.perform host effect') := by
  have ho := h.outside
  cases he with
  | done hm => exact .ok () ⟨hm, ho⟩
  | refused he => exact .error he h
  | drawn hm =>
    rw [Computer.perform, Computer.perform, hm.grid, ho]
    split
    · exact .ok () ⟨hm, rfl⟩
    · exact .error (.same _) ⟨hm, rfl⟩
  | asking hr =>
    rw [Computer.perform, Computer.perform, ho]
    split
    · exact .ok () ⟨hr _, rfl⟩
    · exact .ok () ⟨hr _, rfl⟩
    · exact .error (.same _) ⟨h.machine, rfl⟩

theorem step (h : c.Alike d) (host : Host ε) : EndAlike (c.step host) (d.step host) := by
  rw [Computer.step, Computer.step, h.machine.fetch_eq]
  split
  · exact .error (.same _) h
  · exact h.perform (h.machine.execute _)

theorem countDown (h : c.Alike d) (host : Host ε) :
    EndAlike (c.countDown host) (d.countDown host) := by
  rw [Computer.countDown, Computer.countDown, h.machine.sound, h.outside]
  split
  · split
    · exact .ok () ⟨h.machine.decayTimers, rfl⟩
    · exact .error (.same _) ⟨h.machine, rfl⟩
  · exact .ok () ⟨h.machine.decayTimers, rfl⟩

theorem cycle (h : c.Alike d) (host : Host ε) : EndAlike (c.cycle host) (d.cycle host) := by
  have hstep := h.step host
  rw [Computer.cycle, Computer.cycle, h.machine.fetch_eq]
  generalize c.step host = x at hstep ⊢
  generalize d.step host = y at hstep ⊢
  cases hstep with
  | error he h => exact .error he h
  | @ok c₁ d₁ _ h =>
    have hdown := h.countDown host
    simp only
    generalize c₁.countDown host = x at hdown ⊢
    generalize d₁.countDown host = y at hdown ⊢
    cases hdown with
    | error he h => exact .error he h
    | ok _ h => exact .ok _ h

/-! ### Runs -/

theorem iterate {f : Computer ε → Computer ε} (hf : ∀ {c d}, c.Alike d → (f c).Alike (f d))
    (h : c.Alike d) (n : Nat) : (f^[n] c).Alike (f^[n] d) := by
  induction n with
  | zero => exact h
  | succ n ih =>
    rw [Function.iterate_succ_apply', Function.iterate_succ_apply']
    exact hf ih

theorem cycles (h : c.Alike d) (host : Host ε) (n : Nat) :
    (cycles host n c).Alike (cycles host n d) :=
  h.iterate (fun h ↦ (h.cycle host).alike) n

theorem ticked (h : c.Alike d) (pace : Pace ε) : (c.ticked pace).Alike (d.ticked pace) :=
  ⟨h.machine, congrArg pace.tick h.outside⟩

theorem setRunState (h : c.Alike d) (s : RunState) : (c.setRunState s).Alike (d.setRunState s) :=
  ⟨{ h.machine with }, h.outside⟩

end Alike

/-- Turns of the run loop that lead on alike or are over alike. -/
inductive TurnAlike : Turn ε → Turn ε → Prop
  | going {c d : Computer ε} : c.Alike d → TurnAlike (.going c) (.going d)
  | ended {result result' : Except Halt Unit} {c d : Computer ε} :
      EndAlike (result, c) (result', d) → TurnAlike (.over result c) (.over result' d)

namespace Alike

theorem turn (h : c.Alike d) (host : Host ε) (pace : Pace ε) :
    TurnAlike (c.turn host pace) (d.turn host pace) := by
  have hcycle : EndAlike ((c.ticked pace).cycle host) ((d.ticked pace).cycle host) :=
    (h.ticked pace).cycle host
  simp only [Computer.turn, Computer.ticked, h.outside] at hcycle ⊢
  split
  · exact .ended (.ok () ⟨h.machine, rfl⟩)
  · generalize Computer.cycle host _ = x at hcycle ⊢
    generalize Computer.cycle host _ = y at hcycle ⊢
    cases hcycle with
    | ok _ h => exact .going h
    | @error e _ _ _ he h =>
      cases he with
      | same =>
        cases e with
        | quit => exact .ended (.ok () h)
        | _ => exact .ended (.error (.same _) h)
      | underflow hpc => exact .ended (.error (.underflow hpc) h)

theorem loop (h : c.Alike d) (host : Host ε) (pace : Pace ε) (limit : Nat) :
    Option.Rel EndAlike (c.loop host pace limit) (d.loop host pace limit) := by
  induction limit generalizing c d with
  | zero => exact .none
  | succ limit ih =>
    have hturn := h.turn host pace
    rw [Computer.loop, Computer.loop]
    generalize c.turn host pace = x at hturn ⊢
    generalize d.turn host pace = y at hturn ⊢
    cases hturn with
    | going h => exact ih h
    | ended h => exact .some h

theorem run (h : c.Alike d) (host : Host ε) (pace : Pace ε) (limit : Nat) :
    Option.Rel EndAlike (c.run host pace limit) (d.run host pace limit) := by
  have hloop := (h.setRunState .running).loop host pace limit
  rw [Computer.run, Computer.run]
  generalize (c.setRunState .running).loop host pace limit = x at hloop ⊢
  generalize (d.setRunState .running).loop host pace limit = y at hloop ⊢
  cases hloop with
  | none => exact .none
  | some h =>
    cases h with
    | ok _ h => exact .some (.ok () (h.setRunState .stopped))
    | error he h => exact .some (.error he (h.setRunState .stopped))

theorem recorded (h : c.Alike d) : c.recorded.Alike d.recorded :=
  ⟨h.machine, congrArg (·, []) h.outside⟩

/-- Other addresses of the same places make no difference. -/
theorem readdress {pc i : UInt16} {stack : Vector UInt16 16} (hsp : c.machine.sp.toNat ≤ 15)
    (hpc : place c.machine.pc = place pc) (hi : place c.machine.i = place i)
    (hslots : ∀ k : Fin 16, 0 < k.val → k.val ≤ c.machine.sp.toNat →
      place c.machine.stack[k] = place stack[k]) :
    c.Alike { c with machine := { c.machine with pc, i, stack } } :=
  ⟨{ Machine.Alike.refl hsp with i := hi, pc := hpc, slots := hslots }, rfl⟩

end Alike

/-! ## Runs that cannot be told apart -/

/-- So many steps called by hand, whatever they answer. -/
def steps (host : Host ε) (n : Nat) : Computer ε → Computer ε := (fun c ↦ (c.step host).2)^[n]

/-- Whatever is done with `c` and with `d` ends alike and asks the devices for the same. -/
structure SameRuns (host : Host ε) (c d : Computer ε) : Prop where
  step : EndAlike (c.step host) (d.step host)
  cycle : EndAlike (c.cycle host) (d.cycle host)
  /-- Frames, queries with their answers, and cues. -/
  stepRequests : c.stepRequests host = d.stepRequests host
  trace : ∀ n, trace host n c = trace host n d
  steps : ∀ n, EndAlike ((steps host n c).step host) ((steps host n d).step host)
  cycles : ∀ n, EndAlike ((cycles host n c).cycle host) ((cycles host n d).cycle host)
  /-- A run is over for both or for none. -/
  run : ∀ (pace : Pace ε) (limit : Nat),
    Option.Rel EndAlike (c.run host pace limit) (d.run host pace limit)

/-- Computers that are alike stay so in whatever they execute, and nobody outside can tell them
apart. -/
theorem alike_sameRuns (host : Host ε) (c d : Computer ε) (h : c.Alike d) : SameRuns host c d where
  step := h.step host
  cycle := h.cycle host
  stepRequests := by
    rw [← stepTrace_eq, ← stepTrace_eq]
    exact congrArg Prod.snd (h.recorded.step host.recording).alike.outside
  trace n := congrArg Prod.snd (h.recorded.cycles host.recording n).outside
  steps n := (h.iterate (fun h ↦ (h.step host).alike) n).step host
  cycles n := (h.cycles host n).cycle host
  run := h.run host

/-- The program `2204 0000 00EE`, in its call. -/
def inCall : Computer Bench :=
  (((onBench .null).load (.ofBytes [0x22, 0x04, 0x00, 0x00, 0x00, 0xEE])).2.step Bench.host).2

/-- The same with high bits in the program counter, the index register, the slot of the call and one
that is not in use. -/
def inHighCall : Computer Bench :=
  { inCall with machine := { inCall.machine with
      pc := 0x1204, i := 0xF000, stack := (inCall.machine.stack.set 1 0x7200).set 2 0x123 } }

/-- The return leads to different addresses of the same place. -/
theorem alike_sameRuns_inCall : inCall.Alike inHighCall ∧
    (inCall.step Bench.host).2.machine.pc = 0x202 ∧
    (inHighCall.step Bench.host).2.machine.pc = 0x7202 ∧ SameRuns Bench.host inCall inHighCall := by
  have hslots : ∀ k : Fin 16, 0 < k.val → k.val ≤ inCall.machine.sp.toNat →
      place inCall.machine.stack[k] = place inHighCall.machine.stack[k] := by decide +kernel
  have halike : inCall.Alike inHighCall :=
    .readdress (by decide +kernel) (by decide +kernel) (by decide +kernel) hslots
  exact ⟨halike, by decide +kernel, by decide +kernel,
    alike_sameRuns Bench.host inCall inHighCall halike⟩

end Computer

end Chip8
