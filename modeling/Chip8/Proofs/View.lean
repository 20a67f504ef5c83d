import Chip8.Proofs.Step

/-! # Views of a computer

A computer can be looked at through a change of its machine that no instruction notices and through
a view of its outside that the devices do not go beyond. It then does what it does without: so the
run state is of no account to a cycle, and neither is whatever a clock keeps. -/

namespace Chip8

variable {ε δ α : Type}

/-- A change of the machine that neither instructions nor timers notice. -/
structure Machine.Unnoticed (f : Machine → Machine) : Prop where
  fetch (m : Machine) : (f m).fetch = m.fetch
  grid (m : Machine) : (f m).grid = m.grid
  sound (m : Machine) : (f m).sound = m.sound
  execute (m : Machine) (i : Instruction) : (f m).execute i = (m.execute i).map f
  decayTimers (m : Machine) : (f m).decayTimers = f m.decayTimers

theorem Effect.map_id (effect : Effect) : effect.map id = effect := by
  cases effect <;> rfl

theorem Machine.unnoticed_id : Machine.Unnoticed id where
  fetch _ := rfl
  grid _ := rfl
  sound _ := rfl
  execute m i := (m.execute i).map_id.symm
  decayTimers _ := rfl

theorem Machine.unnoticed_withRunState (s : RunState) : Machine.Unnoticed (·.withRunState s) where
  fetch _ := rfl
  grid _ := rfl
  sound _ := rfl
  execute m i := m.execute_withRunState s i
  decayTimers _ := rfl

/-- The devices of `host` act on the outside as `devices` do on what `view` shows of it, and they
answer the same. -/
structure Host.Shows (host : Host ε) (devices : Host δ) (view : ε → δ) : Prop where
  draw (grid : Grid) (e : ε) : devices.draw grid (view e) = Prod.map id view (host.draw grid e)
  key (e : ε) : devices.key (view e) = Prod.map id view (host.key e)
  cue (e : ε) : devices.cue (view e) = Prod.map id view (host.cue e)

theorem Host.shows_id (host : Host ε) : host.Shows host id where
  draw _ _ := rfl
  key _ := rfl
  cue _ := rfl

/-- The devices leave `f` of the outside alone. -/
structure Host.Keeps (host : Host ε) (f : ε → α) : Prop where
  draw (grid : Grid) (e : ε) : f (host.draw grid e).2 = f e
  key (e : ε) : f (host.key e).2 = f e
  cue (e : ε) : f (host.cue e).2 = f e

namespace Computer

variable {host : Host ε} {devices : Host δ} {f : Machine → Machine} {view : ε → δ}

/-- A computer with its machine changed and its outside viewed. -/
def seen (f : Machine → Machine) (view : ε → δ) (c : Computer ε) : Computer δ :=
  ⟨f c.machine, view c.outside⟩

/-! ## Nothing is done differently -/

theorem perform_seen (hf : Machine.Unnoticed f) (hv : host.Shows devices view) (c : Computer ε)
    (effect : Effect) :
    (c.seen f view).perform devices (effect.map f) =
      Prod.map id (seen f view) (c.perform host effect) := by
  cases effect with
  | done | refused | fault => rfl
  | drawn m =>
    have hd : devices.draw (f m).grid (view c.outside) =
        Prod.map id view (host.draw m.grid c.outside) := by
      rw [hf.grid, hv.draw]
    simp only [Effect.map, perform, seen, hd]
    rcases host.draw m.grid c.outside with ⟨_ | _, outside⟩ <;> rfl
  | asking resume =>
    simp only [Effect.map, perform, seen, hv.key]
    rcases host.key c.outside with ⟨(_ | _) | _, outside⟩ <;> rfl

theorem step_seen (hf : Machine.Unnoticed f) (hv : host.Shows devices view) (c : Computer ε) :
    (c.seen f view).step devices = Prod.map id (seen f view) (c.step host) := by
  have hfetch : (c.seen f view).machine.fetch = c.machine.fetch := hf.fetch c.machine
  cases hd : Instruction.decode c.machine.fetch with
  | error e =>
    rw [step_of_unknown hd, step_of_unknown (hfetch ▸ hd)]
    rfl
  | ok i =>
    rw [step_of_decode hd, step_of_decode (hfetch ▸ hd), ← perform_seen hf hv, ← hf.execute]
    rfl

theorem countDown_seen (hf : Machine.Unnoticed f) (hv : host.Shows devices view)
    (c : Computer ε) :
    (c.seen f view).countDown devices = Prod.map id (seen f view) (c.countDown host) := by
  simp only [countDown, seen, hf.sound, hf.decayTimers, hv.cue]
  split
  · rcases host.cue c.outside with ⟨_ | _, outside⟩ <;> rfl
  · rfl

theorem cycle_seen (hf : Machine.Unnoticed f) (hv : host.Shows devices view) (c : Computer ε) :
    (c.seen f view).cycle devices = Prod.map id (seen f view) (c.cycle host) := by
  have hfetch : (c.seen f view).machine.fetch = c.machine.fetch := hf.fetch c.machine
  simp only [cycle, step_seen hf hv, hfetch]
  rcases c.step host with ⟨_ | _, c₁⟩
  · rfl
  · simp only [Prod.map, id, countDown_seen hf hv]
    rcases c₁.countDown host with ⟨_ | _, c₂⟩ <;> rfl

/-! ## What the devices keep, a cycle keeps -/

variable {g : ε → α}

theorem perform_keeps (hg : host.Keeps g) (c : Computer ε) (effect : Effect) :
    g (c.perform host effect).2.outside = g c.outside := by
  cases effect with
  | done | refused | fault => rfl
  | drawn m =>
    rw [← hg.draw m.grid c.outside, perform]
    split
    · next hd => rw [hd]
    · next hd => rw [hd]
  | asking resume =>
    rw [← hg.key c.outside, perform]
    split
    · next hk => rw [hk]
    · next hk => rw [hk]
    · next hk => rw [hk]

theorem step_keeps (hg : host.Keeps g) (c : Computer ε) :
    g (c.step host).2.outside = g c.outside := by
  unfold step
  split
  · rfl
  · exact perform_keeps hg c _

theorem countDown_keeps (hg : host.Keeps g) (c : Computer ε) :
    g (c.countDown host).2.outside = g c.outside := by
  obtain ⟨_, hd⟩ | ⟨_, _, hq, hd⟩ | ⟨_, _, _, hq, hd⟩ := countDown_cases host c
  · rw [hd]
  · rw [hd, ← hg.cue c.outside, hq]
  · rw [hd, ← hg.cue c.outside, hq]

theorem cycle_keeps (hg : host.Keeps g) (c : Computer ε) :
    g (c.cycle host).2.outside = g c.outside := by
  have hstep := step_keeps hg c
  obtain ⟨_, _, hs, hc⟩ | ⟨c₁, _, _, hs, _, hq, hc⟩ | ⟨c₁, _, hs, hd, hc⟩ := cycle_cases host c
  · rw [hs] at hstep
    rw [hc, hstep]
  · have hcue := hg.cue c₁.outside
    rw [hq] at hcue
    rw [hs] at hstep
    rw [hc]
    exact hcue.trans hstep
  · have hdown := countDown_keeps hg c₁
    rw [hd] at hdown
    rw [hs] at hstep
    rw [hc]
    exact hdown.trans hstep

end Computer

end Chip8
