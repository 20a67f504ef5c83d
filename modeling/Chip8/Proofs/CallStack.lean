import Chip8.Proofs.Invariant

/-! # The call stack

The stack with its pointer stands for the list of calls that are open. The list is told by what has
been executed: a call adds its site, a return drops the latest one. Slots above the pointer keep old
sites and count for nothing. -/

namespace Chip8

/-- The sites of the calls that are open after the instructions of a log, the latest first. -/
def openCalls : List (Machine × Instruction) → List UInt16
  | [] => []
  | (m, .call _) :: log => m.pc :: openCalls log
  | (_, .ret) :: log => (openCalls log).tail
  | _ :: log => openCalls log

theorem openCalls_other {i : Instruction} (h : i ≠ .ret ∧ ∀ addr, i ≠ .call addr) (m : Machine)
    (log : List (Machine × Instruction)) : openCalls ((m, i) :: log) = openCalls log := by
  cases i with
  | ret => exact absurd rfl h.1
  | call addr => exact absurd rfl (h.2 addr)
  | _ => rfl

namespace Machine

variable {m m' : Machine}

/-- The sites in the slots up to the pointer, the oldest first. -/
def openSlots (m : Machine) : List UInt16 := (m.stack.toList.drop 1).take m.sp.toNat

theorem length_openSlots (h : m.sp.toNat ≤ 15) : m.openSlots.length = m.sp.toNat := by
  simp [openSlots, h]

theorem openSlots_congr (h : m'.calls = m.calls) : m'.openSlots = m.openSlots := by
  obtain ⟨hstack, hsp⟩ := Prod.mk.inj h
  rw [openSlots, openSlots, hstack, hsp]

/-- The next slot takes the site of a call. -/
theorem openSlots_call (h : m.sp.toNat + 1 < 16) (addr : UInt16) :
    openSlots { m with
      sp := m.sp + 1
      stack := m.stack.set (m.sp.toNat + 1) m.pc h
      pc := addr } = m.openSlots ++ [m.pc] := by
  have hsp : (m.sp + 1).toNat = m.sp.toNat + 1 := toNat_add_one fun hmax ↦ by simp [hmax] at h
  have hlen : m.sp.toNat < (m.stack.toList.drop 1).length := by
    rw [List.length_drop, Vector.length_toList]
    omega
  simp only [openSlots, hsp]
  rw [Vector.toList_set, List.drop_set, if_neg (by omega), Nat.add_sub_cancel, List.take_add_one,
    List.take_set_of_le (Nat.le_refl _), List.getElem?_set_self hlen]
  rfl

/-- The slot of the latest call holds the last of the open sites. -/
theorem openSlots_eq_append (h0 : m.sp ≠ 0) (h : m.sp.toNat < 16) :
    m.openSlots = (m.stack.toList.drop 1).take (m.sp - 1).toNat ++ [m.stack[m.sp.toNat]] := by
  obtain ⟨n, hn⟩ := Nat.exists_eq_succ_of_ne_zero fun he ↦ h0 (UInt8.toNat_inj.1 he)
  rw [openSlots, toNat_sub_one h0]
  simp only [hn, Nat.succ_eq_add_one, Nat.add_sub_cancel]
  rw [List.take_add_one, List.getElem?_drop, Nat.add_comm 1 n,
    List.getElem?_eq_getElem (by simp; omega)]
  simp

end Machine

/-! ## Nested calls -/

/-- As long as more calls are open than there were before it, a call stays open. -/
theorem openCalls_nested {base log : List (Machine × Instruction)} {site : UInt16}
    {sites : List UInt16} (hbase : openCalls base = site :: sites)
    (h : ∀ part, part <:+ log → sites.length < (openCalls (part ++ base)).length) :
    ∃ above, openCalls (log ++ base) = above ++ site :: sites := by
  induction log with
  | nil => exact ⟨[], hbase⟩
  | cons entry log ih =>
    obtain ⟨m, i⟩ := entry
    obtain ⟨above, ha⟩ := ih fun part hp ↦ h part (hp.trans (List.suffix_cons _ _))
    have hall := h _ List.suffix_rfl
    by_cases hr : i = .ret
    · subst hr
      simp only [List.cons_append, openCalls, ha] at hall ⊢
      cases above with
      | nil => exact absurd hall (Nat.lt_irrefl _)
      | cons _ above => exact ⟨above, rfl⟩
    by_cases hc : ∃ addr, i = .call addr
    · obtain ⟨addr, rfl⟩ := hc
      exact ⟨m.pc :: above, by rw [List.cons_append, openCalls, ha, List.cons_append]⟩
    · refine ⟨above, ?_⟩
      rw [List.cons_append, openCalls_other ⟨hr, fun addr he ↦ hc ⟨addr, he⟩⟩, ha]

namespace Computer

open Instruction

variable {ε : Type} {host : Host ε} {c c' c₁ c₂ c₃ : Computer ε}
  {log log' : List (Machine × Instruction)}

/-! ## The stack along a history -/

/-- From an empty stack on, the open slots hold the sites of the open calls. -/
theorem History.openSlots_eq (h : History host c log c') (hs : c.machine.Sound)
    (h0 : c.machine.sp = 0) : c'.machine.openSlots = (openCalls log).reverse := by
  induction h with
  | start => simp [Machine.openSlots, h0, openCalls]
  | @executed log i c₁ c₂ hh hx ih =>
    have hs₁ := hh.sound hs
    obtain ⟨addr, rfl, hlt, he⟩ | ⟨rfl, hne, hlt, he⟩ | ⟨hi, he⟩ := hx.calls_cases hs₁
    · rw [he, Machine.openSlots_call, ih, openCalls, List.reverse_cons]
    · rw [Machine.openSlots_eq_append hne hlt] at ih
      rw [openCalls, ← List.dropLast_reverse, ← ih, List.dropLast_concat, he]
      rfl
    · rw [Machine.openSlots_congr he, ih, openCalls_other hi]
  | idle hh hi ih => rw [Machine.openSlots_congr hi.calls_eq, ih]

/-- The pointer counts the open calls. -/
theorem History.sp_eq (h : History host c log c') (hs : c.machine.Sound) (h0 : c.machine.sp = 0) :
    c'.machine.sp.toNat = (openCalls log).length := by
  rw [← Machine.length_openSlots (h.sound hs).sp_le, h.openSlots_eq hs h0, List.length_reverse]

/-- The slot at the pointer holds the latest open site. -/
theorem History.stack_sp_eq {site : UInt16} {sites : List UInt16} (h : History host c log c')
    (hs : c.machine.Sound) (h0 : c.machine.sp = 0) (ho : openCalls log = site :: sites)
    (hne : c'.machine.sp ≠ 0) (hlt : c'.machine.sp.toNat < 16) :
    c'.machine.stack[c'.machine.sp.toNat] = site := by
  have hslots := h.openSlots_eq hs h0
  rw [Machine.openSlots_eq_append hne hlt, ho, List.reverse_cons] at hslots
  exact List.singleton_inj.1 (List.append_inj_right' hslots rfl)

/-- The first return to the depth of a call continues behind the call, with the slots of the calls
around it unchanged. -/
theorem History.returns {addr : UInt16} (h : History host c log c₁) (hs : c.machine.Sound)
    (h0 : c.machine.sp = 0) (hcall : c₁.Executes host (.call addr) c₂)
    (hh : History host c₂ log' c₃)
    (hdeep : ∀ part, part <:+ log' →
      (openCalls log).length < (openCalls (part ++ (c₁.machine, .call addr) :: log)).length)
    (hret : c₃.Executes host .ret c') (hsp : c'.machine.sp = c₁.machine.sp) :
    c'.machine.pc = c₁.machine.pc + 2 ∧ c'.machine.openSlots = c₁.machine.openSlots := by
  have h₃ : History host c (log' ++ (c₁.machine, .call addr) :: log) c₃ :=
    (h.executed hcall).trans hh
  have hbase : openCalls ((c₁.machine, .call addr) :: log) = c₁.machine.pc :: openCalls log := rfl
  obtain ⟨above, ha⟩ := openCalls_nested hbase hdeep
  have hlen := (h₃.executed hret).sp_eq hs h0
  rw [hsp, h.sp_eq hs h0, openCalls, ha] at hlen
  have hnil : above = [] := by
    rw [List.length_tail, List.length_append, List.length_cons] at hlen
    exact List.length_eq_zero_iff.1 (by omega)
  rw [hnil, List.nil_append] at ha
  constructor
  · obtain ⟨_, hi, _⟩ | ⟨_, hne, hlt, he⟩ | ⟨⟨hi, _⟩, _⟩ := hret.calls_cases (h₃.sound hs)
    · cases hi
    · rw [he]
      exact congrArg (· + 2) (h₃.stack_sp_eq hs h0 ha hne hlt)
    · exact absurd rfl hi
  · rw [(h₃.executed hret).openSlots_eq hs h0, h.openSlots_eq hs h0, openCalls, ha, List.tail_cons]

/-! ## The stack of a machine that was fresh -/

/-- How a computer with this log behind it deals with calls. -/
structure FollowsCalls (host : Host ε) (log : List (Machine × Instruction)) (c : Computer ε) :
    Prop where
  sp_eq : c.machine.sp.toNat = (openCalls log).length
  slots_eq : c.machine.openSlots = (openCalls log).reverse
  /-- A call is refused if fifteen are open, and only then. -/
  call : ∀ addr, decode c.machine.fetch = .ok (.call addr) →
    (c.step host).1 = if (openCalls log).length = 15 then .error (.error (.stackOverflow addr))
      else .ok ()
  /-- A return is refused if no call is open, and else continues behind the latest one. -/
  ret : decode c.machine.fetch = .ok .ret → match openCalls log with
    | [] => (c.step host).1 = .error (.error (.stackUnderflow c.machine.pc))
    | site :: _ => (c.step host).1 = .ok () ∧ (c.step host).2.machine.pc = site + 2
  /-- Whatever is executed behind a call, as long as more calls are open than before it, the return
  to that depth continues behind the call, and the slots of the calls around it are unchanged. -/
  returns : ∀ addr c₁ log' c₂ c₃, c.Executes host (.call addr) c₁ → History host c₁ log' c₂ →
    (∀ part, part <:+ log' →
      (openCalls log).length < (openCalls (part ++ (c.machine, .call addr) :: log)).length) →
    c₂.Executes host .ret c₃ → c₃.machine.sp = c.machine.sp →
    c₃.machine.pc = c.machine.pc + 2 ∧ c₃.machine.openSlots = c.machine.openSlots

theorem History.followsCalls (h : History host c log c') (hs : c.machine.Sound)
    (h0 : c.machine.sp = 0) : c'.FollowsCalls host log where
  sp_eq := h.sp_eq hs h0
  slots_eq := h.openSlots_eq hs h0
  call addr hi := by
    rw [← h.sp_eq hs h0]
    by_cases htop : c'.machine.sp = Machine.stackTop
    · rw [step_call_full hi htop, if_pos (by rw [htop]; rfl)]
    · have hne : c'.machine.sp.toNat ≠ 15 := fun he ↦ htop (UInt8.toNat_inj.1 he)
      have hle := (h.sound hs).sp_le
      rw [step_call hi (by omega), if_neg hne]
  ret hi := by
    have hlen := h.sp_eq hs h0
    split
    · next ho =>
      rw [ho] at hlen
      rw [step_ret_empty hi (UInt8.toNat_inj.1 hlen)]
    · next site sites ho =>
      have hle := (h.sound hs).sp_le
      have hne : c'.machine.sp ≠ 0 := by
        intro hz
        rw [ho, hz] at hlen
        cases hlen
      rw [step_ret hi hne (by omega)]
      exact ⟨rfl, congrArg (· + 2) (h.stack_sp_eq hs h0 ho hne (by omega))⟩
  returns _ _ _ _ _ hcall hh hdeep hret hsp := h.returns hs h0 hcall hh hdeep hret hsp

/-- However a machine that was fresh is run, its stack follows the calls that it executes; and all
that calls on it lead to, they lead to along histories. -/
theorem fresh_followsCalls (host : Host ε) (options : Options) (entropy : UInt64) (outside : ε) :
    (∀ log c, History host ⟨.fresh options entropy, outside⟩ log c → c.FollowsCalls host log) ∧
      ∀ c, Reaches host ⟨.fresh options entropy, outside⟩ c →
        ∃ log, History host ⟨.fresh options entropy, outside⟩ log c := by
  have hfresh := Machine.fresh_sound options entropy
  constructor
  · intro log c h
    exact h.followsCalls hfresh rfl
  · intro c h
    exact h.history hfresh

/-- The program `2204 0000 2208 0000 00EE`, before anything is executed. -/
def callInCall : Computer Bench :=
  ((onBench .null).load (.ofBytes [0x22, 0x04, 0x00, 0x00, 0x22, 0x08, 0x00, 0x00, 0x00, 0xEE])).2

/-- The computer after so many steps of `callInCall`. -/
def callInCallAfter : Nat → Computer Bench
  | 0 => callInCall
  | n + 1 => ((callInCallAfter n).step Bench.host).2

/-- After a call, a call within it and one return, the first call is open. -/
theorem fresh_followsCalls_callInCall :
    ∃ log, History Bench.host (onBench .null) log (callInCallAfter 3) ∧ openCalls log = [0x200] ∧
      (callInCallAfter 3).FollowsCalls Bench.host log := by
  have hi₀ : decode (callInCallAfter 0).machine.fetch = .ok (.call 0x204) :=
    decode_eq_ok_iff.2 (by decide +kernel)
  have hi₁ : decode (callInCallAfter 1).machine.fetch = .ok (.call 0x208) :=
    decode_eq_ok_iff.2 (by decide +kernel)
  have hi₂ : decode (callInCallAfter 2).machine.fetch = .ok .ret :=
    decode_eq_ok_iff.2 (by decide +kernel)
  have h : History Bench.host (onBench .null)
      [((callInCallAfter 2).machine, .ret), ((callInCallAfter 1).machine, .call 0x208),
        ((callInCallAfter 0).machine, .call 0x204)] (callInCallAfter 3) := by
    refine .executed (.executed (.executed (.idle .start (.load _)) ?_) ?_) ?_
    · exact executes_of_step hi₀ (by rw [step_call hi₀ (by decide +kernel)])
    · exact executes_of_step hi₁ (by rw [step_call hi₁ (by decide +kernel)])
    · exact executes_of_step hi₂ (by rw [step_ret hi₂ (by decide +kernel) (by decide +kernel)])
  exact ⟨_, h, by decide +kernel, (fresh_followsCalls Bench.host {} 0 _).1 _ _ h⟩

end Computer

end Chip8
