import Chip8.Host
import Chip8.Instruction.Decode
import Chip8.Machine.Execute

/-! # A machine among its devices

A computer is a machine together with the state of its outside. A step executes one instruction, a
cycle also counts the timers down, and the run loop performs one cycle a tick. -/

namespace Chip8

/-- Why a call on a computer ends without success. -/
inductive Halt
  | error (e : Error)
  /-- The stack pointer led outside the stack. -/
  | fault
deriving DecidableEq, Repr

structure Computer (ε : Type) where
  machine : Machine
  outside : ε

namespace Computer

variable {ε : Type}

/-! ## Steps -/

/-- Carries out what an effect needs from the devices. A keypad without a key is no failure; any
other failure of the keypad leaves the machine as it was, and one of the display comes too late to
undo the drawing. -/
def perform (host : Host ε) (c : Computer ε) : Effect → Except Halt Unit × Computer ε
  | .done m => (.ok (), { c with machine := m })
  | .refused e => (.error (.error e), c)
  | .fault m => (.error .fault, { c with machine := m })
  | .drawn m =>
    match host.draw m.grid c.outside with
    | (.ok (), outside) => (.ok (), ⟨m, outside⟩)
    | (.error e, outside) => (.error (.error (.display e)), ⟨m, outside⟩)
  | .asking resume =>
    match host.key c.outside with
    | (.ok key, outside) => (.ok (), ⟨resume (some key), outside⟩)
    | (.error .noKey, outside) => (.ok (), ⟨resume none, outside⟩)
    | (.error e, outside) => (.error (.error (.ofKeypad e)), { c with outside })

/-- Executes the instruction at the program counter. -/
def step (host : Host ε) (c : Computer ε) : Except Halt Unit × Computer ε :=
  match Instruction.decode c.machine.fetch with
  | .error e => (.error (.error e), c)
  | .ok instruction => c.perform host (c.machine.execute instruction)

/-! ## Cycles -/

/-- Sounds the cue if the sound timer is about to run out, then counts both timers down. A failed
cue leaves both as they were. -/
def countDown (host : Host ε) (c : Computer ε) : Except Halt Unit × Computer ε :=
  if c.machine.sound = 1 then
    match host.cue c.outside with
    | (.ok (), outside) => (.ok (), ⟨c.machine.decayTimers, outside⟩)
    | (.error e, outside) => (.error (.error (.sound e)), { c with outside })
  else (.ok (), { c with machine := c.machine.decayTimers })

/-- A step, and the timers after it if it succeeds; answers the word that was executed. -/
def cycle (host : Host ε) (c : Computer ε) : Except Halt UInt16 × Computer ε :=
  match c.step host with
  | (.error h, c') => (.error h, c')
  | (.ok (), c') =>
    match c'.countDown host with
    | (.error h, c'') => (.error h, c'')
    | (.ok (), c'') => (.ok c.machine.fetch, c'')

/-! ## The run loop -/

/-- Where one turn of the run loop leads. -/
inductive Turn (ε : Type)
  | going (c : Computer ε)
  | over (result : Except Halt Unit) (c : Computer ε)

/-- One turn: the tick, the look at the stop request, one cycle. A request to quit ends the loop
without an error. -/
def turn (host : Host ε) (pace : Pace ε) (c : Computer ε) : Turn ε :=
  let c := { c with outside := pace.tick c.outside }
  if pace.stopRequested c.outside then .over (.ok ()) c
  else
    match c.cycle host with
    | (.ok _, c) => .going c
    | (.error (.error .quit), c) => .over (.ok ()) c
    | (.error h, c) => .over (.error h) c

/-- At most `limit` turns; nothing if the loop is not over by then. -/
def loop (host : Host ε) (pace : Pace ε) :
    Nat → Computer ε → Option (Except Halt Unit × Computer ε)
  | 0, _ => none
  | limit + 1, c =>
    match c.turn host pace with
    | .going c => loop host pace limit c
    | .over result c => some (result, c)

def setRunState (c : Computer ε) (s : RunState) : Computer ε :=
  { c with machine := { c.machine with runState := s } }

/-- The machine has stopped when the loop is over, unless a fault broke it off. -/
def settle : Except Halt Unit → Computer ε → Computer ε
  | .error .fault, c => c
  | _, c => c.setRunState .stopped

/-- The run loop, for at most `limit` turns. -/
def run (host : Host ε) (pace : Pace ε) (limit : Nat) (c : Computer ε) :
    Option (Except Halt Unit × Computer ε) :=
  ((c.setRunState .running).loop host pace limit).map fun (result, c) ↦ (result, settle result c)

/-! ## Loading -/

/-- Loads a program at the load offset; answers its length. A failed load changes nothing. -/
def load (c : Computer ε) (source : Source) : Except Error Nat × Computer ε :=
  match c.machine.load source with
  | .ok (n, machine) => (.ok n, { c with machine })
  | .error e => (.error e, c)

end Computer

end Chip8
