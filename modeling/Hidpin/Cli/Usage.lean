import Hidpin.Cli.App
import Hidpin.Cli.Grammar

/-! Which command lines the command serves. A wrong one is refused before anything is printed or asked of a
    device, and what a device answers never looks like a wrong command line. -/

namespace Hidpin.Cli
open Firmware (Gpio gpioCount)
open Go (Device)
open Host (World Event)
open Lib (Prog)
open Lib.Prog (Stops)

/-! ### The usage -/

/-- The commands that the usage describes, with their arguments. -/
inductive Usage (o : Options) : List (List Char) → Prop where
  | list (rest) : Usage o ("list".toList :: rest)
  | info (rest) : Usage o ("info".toList :: rest)
  | watch (rest) (hlow : ∃ ns, GpiosText o.activeLow ns) (hhigh : ∃ ns, GpiosText o.activeHigh ns) :
    Usage o ("watch".toList :: rest)
  | configGet (rest) : Usage o ("config".toList :: "get".toList :: rest)
  | configSet (specs) (hne : specs ≠ []) (h : ∀ spec ∈ specs, ∃ p, PinText spec p) :
    Usage o ("config".toList :: "set".toList :: specs)
  | output (specs) (hne : specs ≠ []) (h : ∀ spec ∈ specs, ∃ p, LevelText spec p) :
    Usage o ("output".toList :: specs)

/-- With `--help` everything else is left aside. -/
def Options.Used (o : Options) : Prop := o.help = true ∨ Usage o o.args

/-- The command lines that are served. -/
def Served (argv : List (List Char)) : Prop :=
  ∃ words rest, (∀ w ∈ words, w.WellFormed) ∧ argv = spelled words rest ∧ (meaning .zero words rest).Used

/-! ### What is taken -/

theorem polarities_iff {o : Options} : (∃ activeLow, polarities o = .ok activeLow) ↔
    (∃ ns, GpiosText o.activeLow ns) ∧ ∃ ns, GpiosText o.activeHigh ns := by
  constructor
  · rintro ⟨activeLow, h⟩
    rw [polarities] at h
    cases hlow : parseGpioList o.activeLow with
    | error e =>
      rw [hlow] at h
      cases h
    | ok low =>
      rw [hlow] at h
      cases hhigh : parseGpioList o.activeHigh with
      | error e =>
        rw [hhigh] at h
        cases h
      | ok high => exact ⟨⟨low, parseGpioList_iff.mp hlow⟩, high, parseGpioList_iff.mp hhigh⟩
  · rintro ⟨⟨low, hlow⟩, high, hhigh⟩
    refine ⟨mark false high (mark true low fun _ => none), ?_⟩
    rw [polarities, parseGpioList_iff.mpr hlow, parseGpioList_iff.mpr hhigh]
    rfl

/-- The command lines that are served are those that the options are read from, with a command of the
    usage. -/
theorem served_iff {argv : List (List Char)} : Served argv ↔ ∃ o, parseOptions argv = .ok o ∧ o.Used := by
  constructor
  · rintro ⟨words, rest, hwords, rfl, hused⟩
    exact ⟨_, parseFrom_spelled hwords rest .zero, hused⟩
  · rintro ⟨o, ho, hused⟩
    obtain ⟨words, rest, hwords, hargv, rfl⟩ := spelled_of_parseFrom argv ho
    exact ⟨words, rest, hwords, hargv, hused⟩

/-! ### What a served command stops with -/

/-- A failure that is no usage error. -/
def Failure.Other : Failure → Prop
  | .usage _ _ => False
  | _ => True

theorem other_ofStop (e : Go.Stop) : (Failure.ofStop e).Other := by cases e <;> trivial

section Programs
variable {ω α : Type}

theorem stops_library (m : Prog ω Go.Stop α) : Stops Failure.Other (Command.library m) :=
  .embed _ _ other_ofStop m

theorem stops_print (text : String) : Stops Failure.Other (Command.print text : Command ω Unit) := .update _

theorem stops_warn (text : String) : Stops Failure.Other (Command.warn text : Command ω Unit) := .update _

theorem stops_device (m : Device.Io ω α) : Stops Failure.Other (Session.device m) :=
  .embed _ _ other_ofStop m

theorem stops_show (text : String) : Stops Failure.Other (Session.print text : Session ω Unit) :=
  .zoom _ _ (stops_print text)

theorem stops_alert (text : String) : Stops Failure.Other (Session.warn text : Session ω Unit) :=
  .zoom _ _ (stops_warn text)

/-- Lines, or one text with `--json`. -/
theorem stops_lines {β : Type} (json : Bool) (text : String) (line : β → String) (l : List β) :
    Stops Failure.Other (if json = true then Session.print text else Prog.each
    (fun b => Session.print (line b)) l : Session ω Unit) := by
  split_ifs
  · exact stops_show text
  · exact .each (fun b => stops_show (line b)) l

theorem stops_note (json : Bool) (message : String) :
    Stops Failure.Other (note json message : Command ω Unit) := by
  unfold note
  split_ifs
  · exact stops_warn message
  · exact stops_print message

end Programs

section Commands
variable {ω : Type}

theorem stops_printStatus (o : Options) (s : Go.Status) (missedNow : ℕ) (on : List (U8 × Bool))
    (missed : ℕ) : Stops Failure.Other (printStatus o s missedNow on missed : Command ω Unit) := by
  unfold printStatus
  split_ifs
  · exact stops_print _
  · exact .bind (.only (stops_warn _)) fun _ => .bind (.only (stops_warn _)) fun _ => .only (stops_print _)

/-- The loop of `watch` stops with what the library reports. -/
theorem stops_printEvents (o : Options) : ∀ (events : List Event) (connected : Bool) (missed : ℕ),
    Stops Failure.Other (printEvents o events connected missed : Command ω Unit)
  | [], _, _ => .pure ()
  | e :: events, connected, missed => by
    have hrest := stops_printEvents o events
    cases e with
    | connected => exact .bind (.only (stops_note _ _)) fun _ => hrest _ _
    | connectFailed error =>
      rw [printEvents]
      split_ifs
      · exact .throw trivial
      · exact .bind (stops_warn _) fun _ => hrest _ _
    | disconnected => exact .bind (stops_note _ _) fun _ => hrest _ _
    | statusReceived => exact .bind (stops_printStatus _ _ _ _ _) fun _ => hrest _ _
    | initialOnOff => exact .bind (.only (stops_print _)) fun _ => hrest _ _
    | onOffChange => exact .bind (.only (stops_print _)) fun _ => hrest _ _
    | pinConfigChanged => exact .bind (.only (stops_print _)) fun _ => hrest _ _
    | outputsReset => exact .bind (.only (stops_print _)) fun _ => hrest _ _
    | pinConfigRestored => exact hrest _ _

variable [World ω]

theorem stops_cmdList (json : Bool) : Stops Failure.Other (cmdList json : Command ω Unit) := by
  refine .bind (.call _) fun r => ?_
  cases r with
  | error e => exact .throw trivial
  | ok entries =>
    dsimp only
    split_ifs
    · exact stops_print _
    · exact stops_print _
    · exact .each (fun _ => stops_print _) _

theorem stops_cmdInfo (json : Bool) : Stops Failure.Other (cmdInfo json : Session ω Unit) :=
  .bind (stops_device _) fun _ => .bind (.gets _) fun _ => stops_lines _ _ _ _

theorem stops_cmdConfigGet (json : Bool) : Stops Failure.Other (cmdConfigGet json : Session ω Unit) := by
  refine .bind (stops_device _) fun report => .bind (stops_device _) fun info => ?_
  split_ifs
  · exact stops_show _
  · exact .bind (stops_show _) fun _ => .each (fun _ => stops_show _) _

theorem stops_cmdConfigSet (json : Bool) {specs : List (List Char)}
    (h : ∀ spec ∈ specs, ∃ p, parsePinSpec spec = .ok p) :
    Stops Failure.Other (cmdConfigSet json specs : Session ω Unit) := by
  obtain ⟨settings, hsettings⟩ := collect_ok h fun _ => none
  rw [cmdConfigSet, hsettings]
  refine .bind (.pure settings) fun settings => .bind (stops_device _) fun report => .bind ?_ fun r => ?_
  · exact (Stops.catching some (stops_device _)).mono fun e he => he.1
  · dsimp only
    cases r with
    | error e => exact stops_lines _ _ _ _
    | ok info =>
      dsimp only
      cases pullDownWarning info report.config with
      | some warning => exact .bind (stops_alert warning) fun _ => stops_lines _ _ _ _
      | none => exact stops_lines _ _ _ _

theorem stops_cmdOutput (json : Bool) {specs : List (List Char)}
    (h : ∀ spec ∈ specs, ∃ p, parseOutputSpec spec = .ok p) :
    Stops Failure.Other (cmdOutput json specs : Session ω Unit) := by
  obtain ⟨levels, hlevels⟩ := collect_ok h fun _ => none
  rw [cmdOutput, hlevels]
  refine .bind (.pure levels) fun levels => .bind (stops_device _) fun config => ?_
  dsimp only
  cases ignoredWarning config.outputsMask levels with
  | some warning =>
    exact .bind (stops_alert warning) fun _ => .bind (stops_device _) fun _ =>
      .bind (stops_device _) fun _ => stops_lines _ _ _ _
  | none => exact .bind (stops_device _) fun _ => .bind (stops_device _) fun _ => stops_lines _ _ _ _

theorem stops_withDevice (serial : List Char) (draws : List (Fin 255)) {f : Session ω Unit}
    (hf : Stops Failure.Other f) : Stops Failure.Other (withDevice serial draws f) :=
  .bind (stops_library _) fun _ => .zoom _ _ hf

variable [Watching ω]

theorem stops_cmdWatch {o : Options} (h : ∃ activeLow, polarities o = .ok activeLow) :
    Stops Failure.Other (cmdWatch o : Command ω Unit) := by
  obtain ⟨activeLow, hlow⟩ := h
  rw [cmdWatch, hlow]
  refine .bind (.call _) fun r => ?_
  cases r with
  | error e => exact .throw trivial
  | ok entries =>
    dsimp only
    cases Go.chooseDevice entries (String.ofList o.serial) with
    | error e => exact .throw trivial
    | ok entry =>
      refine .bind (.call _) fun r => ?_
      cases r with
      | error e => exact .throw trivial
      | ok watched =>
        obtain ⟨events, last⟩ := watched
        refine .bind (stops_printEvents o events _ _) fun _ => ?_
        cases last with
        | some e => exact .throw trivial
        | none => exact .pure ()

end Commands

/-! ### Every command line -/

section Run
variable {ω : Type}

/-- The command is refused with nothing done. -/
def Refuses (m : Command ω Unit) : Prop :=
  ∃ message showHelp, ∀ s, m.exec s = (.error (.usage message showHelp), s)

theorem refuses_throw (message : String) (showHelp : Bool) :
    Refuses (throw (.usage message showHelp) : Command ω Unit) := ⟨message, showHelp, fun _ => rfl⟩

theorem Refuses.bind {m : Command ω Unit} (h : Refuses m) (f : Unit → Command ω Unit) :
    Refuses (m >>= f) := by
  obtain ⟨message, showHelp, hm⟩ := h
  exact ⟨message, showHelp, fun s => by rw [Prog.exec_bind, hm s]⟩

theorem checkSpecs_eq_pure {α : Type} {argument : String} {parse : List Char → Except String α} :
    ∀ {specs : List (List Char)}, (∀ spec ∈ specs, ∃ a, parse spec = .ok a) →
      checkSpecs argument parse specs = (pure () : Command ω Unit)
  | [], _ => rfl
  | spec :: specs, h => by
    obtain ⟨⟨a, ha⟩, hspecs⟩ := List.forall_mem_cons.mp h
    rw [checkSpecs, ha]
    exact checkSpecs_eq_pure hspecs

/-- The arguments are all read, or the first that is not refuses the command. -/
theorem checkSpecs_cases {α : Type} (argument : String) (parse : List Char → Except String α) :
    ∀ specs : List (List Char), (∀ spec ∈ specs, ∃ a, parse spec = .ok a) ∨
      Refuses (checkSpecs argument parse specs : Command ω Unit)
  | [] => .inl (by simp)
  | spec :: specs => by
    rw [checkSpecs]
    cases hspec : parse spec with
    | error message => exact .inr (refuses_throw _ _)
    | ok a =>
      exact (checkSpecs_cases argument parse specs).imp_left fun h =>
        List.forall_mem_cons.mpr ⟨⟨a, hspec⟩, h⟩

variable [World ω]

theorem config_used_or_refuses (o : Options) (draws : List (Fin 255)) (rest : List (List Char)) :
    Usage o ("config".toList :: rest) ∨ Refuses (runConfig o draws rest : Command ω Unit) := by
  cases rest with
  | nil => exact .inr (refuses_throw _ _)
  | cons action specs =>
    rw [runConfig]
    split_ifs with hget hset hnone
    · rw [hget]
      exact .inl (.configGet specs)
    · exact .inr (refuses_throw _ _)
    · rw [hset]
      refine (checkSpecs_cases "GPIO=SETTING" parsePinSpec specs).imp
        (fun h => .configSet specs hnone fun spec hspec => ?_)
        fun h => h.bind _
      exact (h spec hspec).imp fun p => parsePinSpec_iff.mp
    · exact .inr (refuses_throw _ _)

variable [Watching ω]

/-- Following the switch of `app.run`. -/
theorem used_or_refuses (o : Options) (draws : List (Fin 255)) :
    o.Used ∨ Refuses (runCommand o draws : Command ω Unit) := by
  rw [runCommand, Options.Used]
  split_ifs with hhelp
  · exact .inl (.inl hhelp)
  cases o.args with
  | nil => exact .inr (refuses_throw _ _)
  | cons command rest =>
    dsimp only
    split_ifs with hlist hinfo hwatch hconfig houtput hnone
    · rw [hlist]
      exact .inl (.inr (.list rest))
    · rw [hinfo]
      exact .inl (.inr (.info rest))
    · rw [hwatch]
      cases hlow : polarities o with
      | error message =>
        rw [cmdWatch, hlow]
        exact .inr (refuses_throw _ _)
      | ok activeLow =>
        obtain ⟨htexts, hhigh⟩ := polarities_iff.mp ⟨activeLow, hlow⟩
        exact .inl (.inr (.watch rest htexts hhigh))
    · rw [hconfig]
      exact (config_used_or_refuses o draws rest).imp_left .inr
    · exact .inr (refuses_throw _ _)
    · rw [houtput]
      refine (checkSpecs_cases "GPIO=VALUE" parseOutputSpec rest).imp
        (fun h => .inr (.output rest hnone fun spec hspec => ?_)) fun h => h.bind _
      exact (h spec hspec).imp fun p => parseOutputSpec_iff.mp
    · exact .inr (refuses_throw _ _)

/-- A served command stops with no usage error, whatever the devices answer. -/
theorem stops_of_used {o : Options} (h : o.Used) (draws : List (Fin 255)) :
    Stops Failure.Other (runCommand o draws : Command ω Unit) := by
  rw [runCommand]
  split_ifs with hhelp
  · exact stops_print _
  have husage := h.resolve_left hhelp
  generalize o.args = args at husage ⊢
  cases husage with
  | list rest =>
    dsimp only
    rw [if_pos rfl]
    exact stops_cmdList _
  | info rest =>
    dsimp only
    rw [if_neg (by decide), if_pos rfl]
    exact stops_withDevice _ _ (stops_cmdInfo _)
  | watch rest hlow hhigh =>
    dsimp only
    rw [if_neg (by decide), if_neg (by decide), if_pos rfl]
    exact stops_cmdWatch (polarities_iff.mpr ⟨hlow, hhigh⟩)
  | configGet rest =>
    dsimp only
    rw [if_neg (by decide), if_neg (by decide), if_neg (by decide), if_pos rfl, runConfig, if_pos rfl]
    exact stops_withDevice _ _ (stops_cmdConfigGet _)
  | configSet specs hne h =>
    have hspecs : ∀ spec ∈ specs, ∃ p, parsePinSpec spec = .ok p := fun spec hspec =>
      (h spec hspec).imp fun p => parsePinSpec_iff.mpr
    dsimp only
    rw [if_neg (by decide), if_neg (by decide), if_neg (by decide), if_pos rfl, runConfig,
      if_neg (by decide), if_pos rfl, if_neg hne, checkSpecs_eq_pure hspecs]
    exact .bind (.pure ()) fun _ => stops_withDevice _ _ (stops_cmdConfigSet _ hspecs)
  | output specs hne h =>
    have hspecs : ∀ spec ∈ specs, ∃ p, parseOutputSpec spec = .ok p := fun spec hspec =>
      (h spec hspec).imp fun p => parseOutputSpec_iff.mpr
    dsimp only
    rw [if_neg (by decide), if_neg (by decide), if_neg (by decide), if_neg (by decide),
      if_pos rfl, if_neg hne, checkSpecs_eq_pure hspecs]
    exact .bind (.pure ()) fun _ => stops_withDevice _ _ (stops_cmdOutput _ hspecs)

theorem exit_ne_two {r : Except Failure Unit} (h : ∀ e, r = .error e → e.Other) (screen : Screen) :
    (exit r screen).1 ≠ some 2 := by
  cases r with
  | ok _ => simp [exit]
  | error e =>
    cases e with
    | usage message showHelp => exact (h _ rfl).elim
    | library e => simp [exit]
    | hangs => simp [exit]

/-- A command line that the usage does not describe is refused with exit status 2 and its message on stderr:
    nothing is printed to stdout, and nothing is asked of a device or the system. Every other command line
    ends in another way, whatever the devices answer. -/
theorem served_or_refused (argv : List (List Char)) (draws : List (Fin 255)) (w : ω) :
    (Served argv ∧ (run argv draws w).1 ≠ some 2) ∨
      (¬ Served argv ∧ ∃ help message,
        run argv draws w = (some 2, ⟨[], help ++ ["hidpin: error: " ++ message]⟩, w)) := by
  by_cases hserved : Served argv
  · refine .inl ⟨hserved, ?_⟩
    obtain ⟨o, ho, hused⟩ := served_iff.mp hserved
    rw [run, ho]
    refine exit_ne_two (fun e he => ?_) _
    have hstops := @stops_of_used ω _ _ o hused draws (⟨[], []⟩, w)
    rw [Prog.wp, he] at hstops
    exact hstops
  · refine .inr ⟨hserved, ?_⟩
    rw [run]
    cases ho : parseOptions argv with
    | error message => exact ⟨[], message, rfl⟩
    | ok o =>
      rcases @used_or_refuses ω _ _ o draws with hused | ⟨message, showHelp, hexec⟩
      · exact (hserved (served_iff.mpr ⟨o, ho, hused⟩)).elim
      · dsimp only
        rw [hexec]
        exact ⟨if showHelp then [usage, ""] else [], message, rfl⟩

end Run

end Hidpin.Cli
