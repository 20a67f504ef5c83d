import Chip8.Program
import Chip8.Proofs.Culprit
import Chip8.Proofs.StateLine

/-! # What the program reports

A program file that is too long is refused, with the machine as it was. Any other is put into memory
and run, and how that ends can be told from the exit code and from the two output streams. -/

namespace Chip8

namespace Machine

variable {options : Options} {entropy : UInt64} {m : Machine}

/-- At the first word of a program, with nothing in the registers. -/
structure AtStart (m : Machine) : Prop where
  pc : m.pc = 0x200
  i : m.i = 0
  sp : m.sp = 0
  delay : m.delay = 0
  sound : m.sound = 0
  v : m.v = .replicate 16 0

instance (m : Machine) : Decidable m.AtStart :=
  decidable_of_iff
    (m.pc = 0x200 ∧ m.i = 0 ∧ m.sp = 0 ∧ m.delay = 0 ∧ m.sound = 0 ∧ m.v = .replicate 16 0)
    ⟨fun ⟨hpc, hi, hsp, hdelay, hsound, hv⟩ ↦ ⟨hpc, hi, hsp, hdelay, hsound, hv⟩,
      fun h ↦ ⟨h.pc, h.i, h.sp, h.delay, h.sound, h.v⟩⟩

/-- The state line of such a machine depends on the word alone. -/
theorem AtStart.dump_eq (h : m.AtStart) :
    m.dump = line (.marked 3 0x200) (.marked 4 m.fetch.toNat) (.marked 3 0) (.decimal 0)
      (.decimal 0) (.decimal 0) "00 00 00 00 00 00 00 00 00 00 00 00 00 00 00 00" := by
  have hregisters : m.registerText = "00 00 00 00 00 00 00 00 00 00 00 00 00 00 00 00" := by
    simp only [registerText, h.v]
    decide +kernel
  rw [dump_eq_line, h.pc, h.i, h.sp, h.delay, h.sound, hregisters]
  rfl

theorem atStart_fresh (h : options.loadOffset = 0x200) : (fresh options entropy).AtStart :=
  ⟨h, rfl, rfl, rfl, rfl, rfl⟩

theorem fetch_fresh (h : options.loadOffset = 0x200) : (fresh options entropy).fetch = 0 := by
  show Memory.fresh.word options.loadOffset = 0
  rw [h]
  decide +kernel

/-- The state line of a machine that has not run. -/
def freshLine : String :=
  "pc=0x200 op=0x0000 i=0x000 sp=0 dt=0 st=0 " ++
    "v=[00 00 00 00 00 00 00 00 00 00 00 00 00 00 00 00]"

theorem dump_fresh (h : options.loadOffset = 0x200) : (fresh options entropy).dump = freshLine := by
  rw [(atStart_fresh h).dump_eq, fetch_fresh h]
  decide +kernel

end Machine

theorem Error.message_loadOverflow (size available : Nat) (offset : UInt16) :
    (loadOverflow size available offset).message = "program is " ++ Numeral.decimal size ++
      " bytes, only " ++ Numeral.decimal available ++ " bytes free from " ++
        Numeral.marked 3 offset.toNat := rfl

/-- A block that is written where programs are loaded can be read back. -/
theorem Memory.get_setBlock_load {m : Memory} {rom : List UInt8} (hfit : rom.length ≤ 3584)
    {k : Nat} (h : k < rom.length) :
    (setBlock 0x200 rom m).get (0x200 + UInt16.ofNat k) = rom[k] := by
  have hback : (0x200 : UInt16) + UInt16.ofNat k - 0x200 = UInt16.ofNat k := by
    rw [UInt16.add_comm, UInt16.add_sub_cancel]
  have hoffset : offset 0x200 (0x200 + UInt16.ofNat k) = k := by
    rw [offset, hback, UInt16.toNat_ofNat']
    omega
  rw [get_setBlock _ _ _ (by omega), hoffset, List.getElem?_eq_getElem h, Option.getD_some]

namespace Program

open Computer Terminal

variable {settings : Settings} {entropy : UInt64} {events : List Event} {schedule : Nat → Nat}
  {rom : List UInt8} {c c' : Computer Session} {limit : Nat} {result : Except Halt Unit}

/-! ## Loading a file -/

/-- The computer `c'` is `c` with a program in memory and about to execute its first word. -/
structure Loaded (rom : List UInt8) (c c' : Computer Session) : Prop where
  pc : c'.machine.pc = 0x200
  bytes : ∀ k (h : k < rom.length), c'.machine.memory.get (0x200 + UInt16.ofNat k) = rom[k]
  rest : c' = { c with machine := { c.machine with memory := c'.machine.memory } }

/-- The error of a program file that is too long. -/
def tooLong (rom : List UInt8) : Error := .loadOverflow rom.length 3584 0x200

/-- The computer with a program where programs are loaded. -/
def withProgram (rom : List UInt8) (c : Computer Session) : Computer Session :=
  { c with machine := { c.machine with memory := .setBlock 0x200 rom c.machine.memory } }

/-- A program file is refused if it is too long, and loaded and run otherwise. -/
theorem execute_file (hc : c.machine.loadOffset = 0x200) :
    execute limit (.file rom) c =
      if 3584 < rom.length then some (.error (.error (tooLong rom)), c)
      else (withProgram rom c).run Session.host Session.pace limit := by
  have havailable : Memory.available c.machine.loadOffset = 3584 := by
    rw [hc]
    rfl
  obtain ⟨_, hr, _⟩ | ⟨data, hr, hlt, hl⟩ | ⟨data, hr, hle, hl⟩ :=
    c.load_cases (source (.file rom))
  · cases (Source.readAll_ofBytes rom).symm.trans hr
  · cases (Source.readAll_ofBytes rom).symm.trans hr
    rw [havailable, hc] at hl
    rw [if_pos (havailable ▸ hlt), execute, hl, tooLong]
  · cases (Source.readAll_ofBytes rom).symm.trans hr
    rw [hc] at hl
    rw [if_neg (Nat.not_lt_of_le (havailable ▸ hle)), execute, hl, withProgram]

theorem loaded_withProgram (h : rom.length ≤ 3584) (hpc : c.machine.pc = 0x200) :
    Loaded rom c (withProgram rom c) :=
  ⟨hpc, fun _ hk ↦ Memory.get_setBlock_load h hk, rfl⟩

/-! ## How a run is reported -/

/-- What is told of a failure: the message of the error, and the state line below it. -/
def told (message state : String) : String := "termchip8: " ++ message ++ "\n  " ++ state ++ "\n"

/-- What is reported when a run of `c` has ended: it ends with the first tick after which a stop
request is seen or whose cycle fails. -/
inductive Ended (settings : Settings) (c : Computer Session) : Except Halt Unit → Report → Prop
  | stopped {k : Nat} : FirstEnd Session.host Session.pace c k →
      (atTick Session.host Session.pace c k).outside.link.stopped = true →
      Ended settings c (.ok ())
        ⟨0, output (atTick Session.host Session.pace c k), banner settings⟩
  | quit {k : Nat} {c' : Computer Session} : FirstEnd Session.host Session.pace c k →
      (atTick Session.host Session.pace c k).outside.link.stopped = false →
      (atTick Session.host Session.pace c k).cycle Session.host = (.error (.error .quit), c') →
      Ended settings c (.ok ()) ⟨0, output c', banner settings⟩
  /-- The state line is that of the machine that the failing cycle has left. -/
  | failed {k : Nat} {e : Error} {c' : Computer Session} :
      FirstEnd Session.host Session.pace c k →
      (atTick Session.host Session.pace c k).outside.link.stopped = false →
      (atTick Session.host Session.pace c k).cycle Session.host = (.error (.error e), c') →
      e ≠ .quit →
      Ended settings c (.error (.error e))
        ⟨1, output c', banner settings ++ told e.message c'.machine.dump⟩

theorem report_ok (settings : Settings) (c : Computer Session) :
    report settings (.ok ()) c = ⟨0, output c, banner settings⟩ :=
  congrArg (Report.mk 0 (output c)) (String.append_empty)

theorem report_error (settings : Settings) (e : Error) (c : Computer Session) :
    report settings (.error (.error e)) c =
      ⟨1, output c, banner settings ++ told e.message c.machine.dump⟩ := rfl

theorem report_setRunState (s : RunState) :
    report settings result (c.setRunState s) = report settings result c := by
  rcases result with (_ | _) | _ <;> rfl

theorem ended_of_run (hs : c.machine.Sound)
    (h : c.run Session.host Session.pace limit = some (result, c')) :
    Ended settings c result (report settings result c') := by
  have hfault : result ≠ .error .fault :=
    make_ne_fault hs (show Call.make _ c (.run Session.pace limit) = _ from h)
  obtain ⟨k, c₁, hfirst, hends, rfl⟩ := run_ends h
  rw [settle_eq hfault, report_setRunState, report_setRunState]
  obtain ⟨hstop, rfl, rfl⟩ | ⟨hstop, halt, hcycle, rfl⟩ := hends
  · rw [report_ok]
    exact .stopped hfirst hstop
  cases halt with
  | fault => exact absurd rfl hfault
  | error e =>
    by_cases hq : e = .quit
    · subst hq
      rw [reported, report_ok]
      exact .quit hfirst hstop hcycle
    · rw [reported_error hq, report_error]
      exact .failed hfirst hstop hcycle hq

/-- A report of success has an exit code of zero and no error. -/
def Report.Succeeds (settings : Settings) (r : Report) : Prop :=
  r.exitCode = 0 ∧ r.err = banner settings

/-- What comes of a program file in the computer `c`, which has not run. -/
structure Reports (settings : Settings) (rom : List UInt8) (c : Computer Session) : Prop where
  /-- A program that is too long leaves the computer as it was, for whatever number of turns. -/
  refused : 3584 < rom.length → ∀ limit,
    execute limit (.file rom) c = some (.error (.error (tooLong rom)), c) ∧
      report settings (.error (.error (tooLong rom))) c = ⟨1, "\n\n", banner settings ++
        told ("program is " ++ Numeral.decimal rom.length ++
          " bytes, only 3584 bytes free from 0x200") Machine.freshLine⟩
  /-- Any other is run from its first word on. -/
  run : rom.length ≤ 3584 → ∃ c₁, Loaded rom c c₁ ∧ ∀ limit,
    execute limit (.file rom) c = c₁.run Session.host Session.pace limit ∧
      ∀ result c', execute limit (.file rom) c = some (result, c') →
        Ended settings c₁ result (report settings result c')
  succeeds : ∀ limit result c', execute limit (.file rom) c = some (result, c') →
    ((report settings result c').Succeeds settings ↔ rom.length ≤ 3584 ∧ result = .ok ())
  /-- Any other end is told with the error and the machine that is left, field by field. -/
  fails : ∀ limit result c', execute limit (.file rom) c = some (result, c') →
    ¬ (report settings result c').Succeeds settings →
      ∃ e, result = .error (.error e) ∧ (report settings result c').exitCode = 1 ∧
        (report settings result c').err = banner settings ++ told e.message c'.machine.dump ∧
        c'.machine.dump = Machine.line (.marked 3 c'.machine.pc.toNat)
          (.marked 4 c'.machine.fetch.toNat) (.marked 3 c'.machine.i.toNat)
          (.decimal c'.machine.sp.toNat) (.decimal c'.machine.delay.toNat)
          (.decimal c'.machine.sound.toNat)
          (" ".intercalate (c'.machine.v.toList.map fun b ↦ Numeral.hex 2 b.toNat))
  /-- The two empty lines stand behind what the speaker has written. -/
  lines : ∀ limit result c', execute limit (.file rom) c = some (result, c') →
    ∃ sound, (report settings result c').out = sound ++ "\n\n"

theorem message_tooLong (rom : List UInt8) : (tooLong rom).message =
    "program is " ++ Numeral.decimal rom.length ++ " bytes, only 3584 bytes free from 0x200" := by
  have hfree : " bytes, only " ++ (Numeral.decimal 3584 ++ (" bytes free from " ++
      Numeral.marked 3 (0x200 : UInt16).toNat)) = " bytes, only 3584 bytes free from 0x200" := by
    decide +kernel
  rw [tooLong, Error.message_loadOverflow, String.append_assoc, String.append_assoc,
    String.append_assoc, hfree]

theorem output_computer :
    output (computer settings entropy events schedule) = "\n\n" := by
  show String.ofList ((speaker settings).written.map fun b ↦ Char.ofNat b.toNat) ++ "\n\n" = "\n\n"
  rw [speaker]
  cases settings.mute <;> rfl

theorem report_tooLong (rom : List UInt8) :
    report settings (.error (.error (tooLong rom))) (computer settings entropy events schedule) =
      ⟨1, "\n\n", banner settings ++
        told ("program is " ++ Numeral.decimal rom.length ++
          " bytes, only 3584 bytes free from 0x200") Machine.freshLine⟩ := by
  have hdump : (computer settings entropy events schedule).machine.dump = Machine.freshLine :=
    Machine.dump_fresh rfl
  rw [report_error, output_computer, message_tooLong, hdump]

theorem ended_of_execute (hle : rom.length ≤ 3584)
    (h : execute limit (.file rom) (computer settings entropy events schedule) =
      some (result, c')) :
    Ended settings (withProgram rom (computer settings entropy events schedule)) result
      (report settings result c') := by
  rw [execute_file rfl, if_neg (Nat.not_lt_of_le hle)] at h
  exact ended_of_run ((Machine.fresh_sound (options settings) entropy).of_calls_eq rfl) h

/-- A program that succeeds has been loaded, and any other ends with an error. -/
theorem result_cases
    (h : execute limit (.file rom) (computer settings entropy events schedule) =
      some (result, c')) :
    (rom.length ≤ 3584 ∧ result = .ok ()) ∨ ∃ e, result = .error (.error e) := by
  obtain hlt | hle := Nat.lt_or_ge 3584 rom.length
  · rw [execute_file rfl, if_pos hlt] at h
    cases h
    exact .inr ⟨_, rfl⟩
  · have hended := ended_of_execute hle h
    generalize report settings result c' = r at hended
    cases hended with
    | stopped | quit => exact .inl ⟨hle, rfl⟩
    | failed => exact .inr ⟨_, rfl⟩

theorem reports_computer (settings : Settings) (entropy : UInt64) (events : List Event)
    (schedule : Nat → Nat) (rom : List UInt8) :
    Reports settings rom (computer settings entropy events schedule) where
  refused hlt limit := by
    rw [execute_file rfl, if_pos hlt]
    exact ⟨rfl, report_tooLong rom⟩
  run hle := by
    refine ⟨_, loaded_withProgram hle rfl, fun limit ↦ ⟨?_, fun _ _ h ↦ ended_of_execute hle h⟩⟩
    rw [execute_file rfl, if_neg (Nat.not_lt_of_le hle)]
  succeeds limit result c' h := by
    obtain ⟨hle, rfl⟩ | ⟨e, rfl⟩ := result_cases h
    · rw [report_ok]
      exact ⟨fun _ ↦ ⟨hle, rfl⟩, fun _ ↦ ⟨rfl, rfl⟩⟩
    · exact ⟨fun hs ↦ absurd hs.1 nofun, fun ho ↦ absurd ho.2 nofun⟩
  fails limit result c' h hf := by
    obtain ⟨_, rfl⟩ | ⟨e, rfl⟩ := result_cases h
    · exact absurd ⟨rfl, by rw [report_ok]⟩ hf
    · exact ⟨e, rfl, rfl, rfl, c'.machine.dump_eq_line⟩
  lines _ _ _ _ := ⟨_, rfl⟩

/-- The program reports a file that is too long with its length and the machine as it was before,
and of any other how its run has ended. -/
theorem run_reports (settings : Settings) (entropy : UInt64) (events : List Event)
    (rom : List UInt8) :
    (∀ schedule, Reports settings rom (computer settings entropy events schedule)) ∧
    ∀ (folder : Folder) (limit : Nat), folder.openPath settings.rom = .ok (.file rom) →
      Program.run limit entropy folder events settings =
        (execute limit (.file rom)
          (computer settings entropy events (Session.eager events))).map
            fun ended ↦ report settings ended.1 ended.2 := by
  refine ⟨fun schedule ↦ reports_computer settings entropy events schedule rom, ?_⟩
  intro folder limit hopen
  rw [Program.run, hopen]

/-- A folder with nothing but a program file. -/
def romFolder (contents : List UInt8) : Folder := ⟨[("rom", contents)]⟩

theorem names_rom : Folder.names "rom" = ["rom"] := by
  have hsplit : "rom".splitOn "/" = ["rom"] := by
    -- None of the three letters is a slash, and then the path is at its end.
    rw [String.splitOn, if_neg (by decide)]
    iterate 3 rw [String.splitOnAux, if_neg (by decide), if_neg (by decide)]
    rw [String.splitOnAux, if_pos (by decide)]
    decide +kernel
  rw [Folder.names, hsplit]
  rfl

theorem openPath_romFolder (contents : List UInt8) :
    (romFolder contents).openPath "rom" = .ok (.file contents) := by
  have hnul : "rom".contains '\x00' = false := by
    rw [String.contains_char_eq]
    decide
  have hpath : ¬ Folder.pathLimit < "rom".utf8ByteSize := by decide
  have hname : ¬ Folder.nameLimit < "rom".utf8ByteSize := by decide
  have hstart : "rom".startsWith "/" = false := by decide +kernel
  have hend : "rom".endsWith "/" = false := by decide +kernel
  have hfound : (romFolder contents).files.lookup "rom" = some contents := List.lookup_cons_self
  simp [Folder.openPath, hnul, hpath, hstart, hend, names_rom, Folder.follow, hname, hfound]

/-- A file with one byte too many is reported without a single turn, and one with the word `00EE`
alone after one, with that word in the state line. -/
theorem run_reports_failures :
    Program.run 0 0 (romFolder (List.replicate 3585 0)) [] ⟨"rom", 60, none, true⟩ =
      some ⟨1, "\n\n", "Loading rom rom\n" ++
        "termchip8: program is 3585 bytes, only 3584 bytes free from 0x200\n" ++
        "  pc=0x200 op=0x0000 i=0x000 sp=0 dt=0 st=0 " ++
          "v=[00 00 00 00 00 00 00 00 00 00 00 00 00 00 00 00]\n"⟩ ∧
    Program.run 1 0 (romFolder [0x00, 0xEE]) [] ⟨"rom", 60, none, true⟩ =
      some ⟨1, "\n\n", "Loading rom rom\n" ++
        "termchip8: stack underflow returning from 0x200\n" ++
        "  pc=0x200 op=0x00EE i=0x000 sp=0 dt=0 st=0 " ++
          "v=[00 00 00 00 00 00 00 00 00 00 00 00 00 00 00 00]\n"⟩ := by
  constructor
  · obtain ⟨hreports, hrun⟩ := run_reports ⟨"rom", 60, none, true⟩ 0 [] (List.replicate 3585 0)
    have hlong : 3584 < (List.replicate 3585 (0 : UInt8)).length := by
      rw [List.length_replicate]
      decide
    obtain ⟨hexecute, hreport⟩ := (hreports (Session.eager [])).refused hlong 0
    rw [hrun _ 0 (openPath_romFolder _), hexecute, Option.map_some, hreport, List.length_replicate]
    decide +kernel
  · obtain ⟨hreports, hrun⟩ := run_reports ⟨"rom", 60, none, true⟩ 0 [] [0x00, 0xEE]
    have hends : (execute 1 (.file [0x00, 0xEE]) (computer ⟨"rom", 60, none, true⟩ 0 []
        (Session.eager []))).map (fun ended ↦ (ended.1, output ended.2, ended.2.machine.fetch,
          decide ended.2.machine.AtStart)) =
        some (.error (.error (.stackUnderflow 0x200)), "\n\n", 0x00EE, true) := by
      decide +kernel
    obtain ⟨⟨result, c'⟩, hexecute, hleft⟩ := Option.map_eq_some_iff.1 hends
    simp only [Prod.mk.injEq, decide_eq_true_eq] at hleft
    obtain ⟨rfl, hout, hfetch, hstart⟩ := hleft
    have hfailed : ¬ (report ⟨"rom", 60, none, true⟩ _ c').Succeeds ⟨"rom", 60, none, true⟩ :=
      fun hs ↦ nomatch (((hreports _).succeeds 1 _ c' hexecute).1 hs).2
    obtain ⟨e, he, hcode, herr, -⟩ := (hreports _).fails 1 _ c' hexecute hfailed
    cases he
    rw [hstart.dump_eq, hfetch] at herr
    rw [hrun _ 1 (openPath_romFolder _), hexecute, Option.map_some]
    refine congrArg some (Report.ext hcode hout (herr.trans ?_))
    decide +kernel

end Program

end Chip8
