import Chip8.Machine.Execute

/-! # Effects of instructions

Which instruction has which kind of effect, and what an instruction leaves alone. The cases of the
instruction set are gone through here, so that the modules about steps and runs need not. -/

namespace Chip8

namespace Effect

/-- Every machine that the effect may leave behind satisfies `P`. -/
def Leaves (P : Machine → Prop) : Effect → Prop
  | .done m | .fault m | .drawn m => P m
  | .refused _ => True
  | .asking resume => ∀ key, P (resume key)

/-- The effect with another machine in the place of each that it may leave behind. -/
def map (f : Machine → Machine) : Effect → Effect
  | .done m => .done (f m)
  | .refused e => .refused e
  | .fault m => .fault (f m)
  | .drawn m => .drawn (f m)
  | .asking resume => .asking fun key ↦ f (resume key)

end Effect

namespace Machine

/-! ## Calls, returns and drawings

Three instructions have more than one kind of effect. -/

/-- A call is refused where the stack is full, and else takes the next slot. -/
theorem call_cases (m : Machine) (addr : UInt16) :
    (m.sp = stackTop ∧ m.call addr = .refused (.stackOverflow addr)) ∨
      (∃ h : m.sp.toNat + 1 < 16, m.call addr =
        .done { m with sp := m.sp + 1, stack := m.stack.set (m.sp.toNat + 1) m.pc h, pc := addr }) ∨
      (15 < m.sp.toNat ∧ ∃ m', m.call addr = .fault m') := by
  have hsp := m.sp.toNat_lt
  by_cases htop : m.sp = stackTop
  · exact .inl ⟨htop, by rw [call, if_pos htop]⟩
  have hne : m.sp.toNat ≠ 15 := fun he ↦ htop (UInt8.toNat_inj.1 he)
  by_cases hmax : m.sp = 255
  · exact .inr (.inr ⟨by simp [hmax], m, by rw [call, if_neg htop, if_pos hmax]⟩)
  have hadd : (m.sp + 1).toNat = m.sp.toNat + 1 := toNat_add_one hmax
  simp only [call, if_neg htop, if_neg hmax, hadd]
  by_cases h : m.sp.toNat + 1 < 16
  · exact .inr (.inl ⟨h, dif_pos h⟩)
  · exact .inr (.inr ⟨by omega, _, dif_neg h⟩)

theorem call_of_lt {m : Machine} {addr : UInt16} (h : m.sp.toNat + 1 < 16) : m.call addr =
    .done { m with sp := m.sp + 1, stack := m.stack.set (m.sp.toNat + 1) m.pc h, pc := addr } := by
  obtain ⟨htop, _⟩ | ⟨_, hc⟩ | ⟨hlt, _⟩ := m.call_cases addr
  · rw [htop] at h
    exact absurd h (by decide)
  · exact hc
  · omega

/-- A return is refused where the stack is empty, and else gives up the latest slot. -/
theorem ret_cases (m : Machine) :
    (m.sp = 0 ∧ m.ret = .refused (.stackUnderflow m.pc)) ∨
      (m.sp ≠ 0 ∧ ∃ h : m.sp.toNat < 16,
        m.ret = .done { m with pc := m.stack[m.sp.toNat] + 2, sp := m.sp - 1 }) ∨
      (15 < m.sp.toNat ∧ m.ret = .fault m) := by
  by_cases h0 : m.sp = 0
  · exact .inl ⟨h0, by rw [ret, if_pos h0]⟩
  by_cases h : m.sp.toNat < 16
  · exact .inr (.inl ⟨h0, h, by rw [ret, if_neg h0, dif_pos h]; rfl⟩)
  · exact .inr (.inr ⟨by omega, by rw [ret, if_neg h0, dif_neg h]⟩)

theorem ret_of_lt {m : Machine} (h0 : m.sp ≠ 0) (h : m.sp.toNat < 16) : m.ret =
    .done { m with pc := m.stack[m.sp.toNat] + 2, sp := m.sp - 1 } := by
  obtain ⟨hz, _⟩ | ⟨_, _, hr⟩ | ⟨hlt, _⟩ := m.ret_cases
  · exact absurd hz h0
  · exact hr
  · omega

/-- A sprite has at most fifteen rows, so one wrap always keeps it on the grid. -/
theorem draw_cases (m : Machine) (x y : Register) (rows : Fin 16) :
    ∃ grid collision,
      m.grid.drawSprite (m.memory.getBlock m.i rows) (m.reg x) (m.reg y) = (grid, some collision) ∧
      m.draw x y rows =
        .drawn ({ m with grid }.setReg flagRegister collision.toUInt8).advance := by
  have hfit : (m.reg y).toNat % Grid.height + (m.memory.getBlock m.i rows).length ≤
      2 * Grid.height := by
    rw [Memory.length_getBlock]
    simp only [Grid.height]
    omega
  obtain ⟨grid, collision, h⟩ : ∃ grid collision,
      m.grid.drawSprite (m.memory.getBlock m.i rows) (m.reg x) (m.reg y) =
        (grid, some collision) := by
    have hall := Grid.Stroke.rows_complete (x := (m.reg x).toNat % Grid.width)
      (s := ⟨m.grid, false⟩) hfit
    unfold Grid.drawSprite
    split
    · exact ⟨_, _, rfl⟩
    · next heq => rw [heq] at hall; cases hall
  exact ⟨grid, collision, h, by rw [draw, h]⟩

/-! ## Which instruction has which effect -/

/-- The effects that instructions have on a machine: only calls and returns are refused or fault,
and only some need a device. -/
inductive HasEffect (m : Machine) : Instruction → Effect → Prop
  | done {i : Instruction} {m' : Machine} : HasEffect m i (.done m')
  | underflow : m.sp = 0 → HasEffect m .ret (.refused (.stackUnderflow m.pc))
  | overflow {addr : UInt16} : m.sp = stackTop →
      HasEffect m (.call addr) (.refused (.stackOverflow addr))
  | fault {i : Instruction} {m' : Machine} : i = .ret ∨ (∃ addr, i = .call addr) →
      15 < m.sp.toNat → HasEffect m i (.fault m')
  | drawn {x y : Register} {rows : Fin 16} {m' : Machine} : HasEffect m (.draw x y rows) (.drawn m')
  | asking {i : Instruction} {x : Register} {resume : Option UInt8 → Machine} :
      i = .skipPressed x ∨ i = .skipNotPressed x ∨ i = .waitKey x → HasEffect m i (.asking resume)

theorem hasEffect_execute (m : Machine) (i : Instruction) : m.HasEffect i (m.execute i) := by
  cases i with
  | ret =>
    rw [execute]
    obtain ⟨h0, hr⟩ | ⟨_, _, hr⟩ | ⟨hlt, hr⟩ := m.ret_cases
    · exact hr ▸ .underflow h0
    · exact hr ▸ .done
    · exact hr ▸ .fault (.inl rfl) hlt
  | call addr =>
    rw [execute]
    obtain ⟨htop, hc⟩ | ⟨_, hc⟩ | ⟨hlt, _, hc⟩ := m.call_cases addr
    · exact hc ▸ .overflow htop
    · exact hc ▸ .done
    · exact hc ▸ .fault (.inr ⟨addr, rfl⟩) hlt
  | draw x y rows =>
    obtain ⟨_, _, _, hd⟩ := m.draw_cases x y rows
    rw [execute, hd]
    exact .drawn
  | skipPressed x => exact .asking (.inl rfl)
  | skipNotPressed x => exact .asking (.inr (.inl rfl))
  | waitKey x => exact .asking (.inr (.inr rfl))
  | _ => exact .done

/-! ## What an instruction leaves alone -/

/-- The part of a machine that calls are kept in: the slots and the pointer to the latest one. -/
def calls (m : Machine) : Vector UInt16 16 × UInt8 := (m.stack, m.sp)

@[simp] theorem calls_skipIf (m : Machine) (condition : Bool) :
    (m.skipIf condition).calls = m.calls := by
  cases condition <;> rfl

@[simp] theorem calls_takeKey (m : Machine) (x : Register) (key : Option UInt8) :
    (m.takeKey x key).calls = m.calls := by
  cases key <;> rfl

-- The unfolding keeps the new registers from being compared with the old ones.
@[simp] theorem calls_loadRegisters (m : Machine) (last : Register) :
    (m.loadRegisters last).calls = m.calls := by
  unfold calls loadRegisters advance
  rfl

/-- All instructions other than calls and returns leave the stack alone. -/
theorem calls_execute (m : Machine) {i : Instruction} (hr : i ≠ .ret)
    (hc : ∀ addr, i ≠ .call addr) : (m.execute i).Leaves fun m' ↦ m'.calls = m.calls := by
  cases i with
  | ret => exact absurd rfl hr
  | call addr => exact absurd rfl (hc addr)
  | draw x y rows =>
    obtain ⟨_, _, _, hd⟩ := m.draw_cases x y rows
    rw [execute, hd]
    exact rfl
  | skipEqImm | skipNeImm | skipEqReg | skipNeReg => exact m.calls_skipIf _
  | skipPressed | skipNotPressed => exact fun _ ↦ m.calls_skipIf _
  | waitKey x => exact m.calls_takeKey x
  | load x => exact m.calls_loadRegisters x
  | _ => exact rfl

/-! ## The run state

No instruction looks at the run state. -/

def withRunState (m : Machine) (s : RunState) : Machine := { m with runState := s }

theorem skipIf_withRunState (m : Machine) (s : RunState) (condition : Bool) :
    (m.withRunState s).skipIf condition = (m.skipIf condition).withRunState s := by
  cases condition <;> rfl

theorem execute_withRunState (m : Machine) (s : RunState) (i : Instruction) :
    (m.withRunState s).execute i = (m.execute i).map (·.withRunState s) := by
  cases i with
  | ret =>
    simp only [execute, ret, apply_ite (Effect.map _), apply_dite (Effect.map _)]
    rfl
  | call addr =>
    simp only [execute, call, apply_ite (Effect.map _), apply_dite (Effect.map _)]
    rfl
  | draw x y rows =>
    obtain ⟨_, _, hg, hd⟩ := m.draw_cases x y rows
    obtain ⟨_, _, hg', hd'⟩ := (m.withRunState s).draw_cases x y rows
    cases hg.symm.trans hg'
    rw [execute, execute, hd, hd']
    rfl
  | skipEqImm | skipNeImm | skipEqReg | skipNeReg =>
    exact congrArg Effect.done (m.skipIf_withRunState s _)
  | skipPressed | skipNotPressed =>
    exact congrArg Effect.asking (funext fun _ ↦ m.skipIf_withRunState s _)
  | waitKey x => exact congrArg Effect.asking (funext fun key ↦ by cases key <;> rfl)
  | _ => rfl

end Machine

end Chip8
