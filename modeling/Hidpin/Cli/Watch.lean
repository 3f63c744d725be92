import Hidpin.Cli.Commands
import Hidpin.Host.Watch

/-! The `watch` command (`tools/hidpin/main.go`): what it prints of each event of a watcher. The events of
    the Go library have the fields of those of the Rust library, which stand for them here. -/

namespace Hidpin.Cli
open Firmware (Gpio gpioCount)
open Host (World Event OutputResetCause OnOffChange)
open Lib (Prog)

/-- `hidpin.Watch` with the serial number and the polarities: the events it delivers until it is stopped, and
    the error that stopped it. -/
class Watching (ω : Type) where
  watch : String → (Gpio → Option Bool) → ω → Except Host.Error (List Event × Option Host.Error) × ω

/-! ### What is printed -/

/-- `Reason.Names`. -/
def reasonNames (reason : U8) : List String :=
  [(Host.Reason.levelChanged, "LEVEL_CHANGED"), (Host.Reason.outputApplied, "OUTPUT_APPLIED"),
    (Host.Reason.configChanged, "CONFIG_CHANGED"), (Host.Reason.periodic, "PERIODIC"),
    (Host.Reason.outputReset, "OUTPUT_RESET"), (Host.Reason.hostRequest, "HOST_REQUEST")].filterMap
      fun (bit, name) =>
        if reason &&& bit ≠ 0 then some name else none

/-- `StatusFlags.Names`. -/
def flagNames (flags : U8) : List String :=
  [(Host.StatusFlags.overflow, "OVERFLOW"), (Host.StatusFlags.moreEvents, "MORE_EVENTS")].filterMap
    fun (bit, name) =>
      if flags &&& bit ≠ 0 then some name else none

/-- An edge event in the JSON text of a report. -/
def eventJson (timestampUs : U64) (e : Go.EdgeEvent) : String := jsonObject
  [("gpio", jsonNat e.gpio.toNat), ("level", jsonBool e.level), ("age_us", jsonNat e.ageUs.toNat),
    ("start_us", (Host.EdgeEvent.startUs e timestampUs).elim "null" fun us => jsonNat us.toNat)]

/-- `reportJSON`. -/
def reportJson (s : Go.Status) (on : List (U8 × Bool)) (missed : ℕ) : String := jsonObject
  [("seq", jsonNat s.seq.toNat), ("reason", jsonArray ((reasonNames s.reason).map jsonText)),
    ("flags", jsonArray ((flagNames s.flags).map jsonText)), ("timestamp_us", jsonNat s.timestampUs.toNat),
    ("monitored", jsonNat s.monitored.toNat), ("outputs", jsonNat s.outputs.toNat),
    ("levels", jsonNat s.levels.toNat),
    ("on", jsonObject (on.map fun (gpio, on) => (toString gpio.toNat, jsonBool on))),
    ("events", jsonArray (s.events.map (eventJson s.timestampUs))), ("missed_reports", jsonNat missed)]

/-- `%10.6f` of a time in seconds. -/
def timeText (us : U64) : String :=
  let text := toString (Float.ofNat us.toNat / 1000000)
  String.ofList (List.replicate (10 - text.length) ' ') ++ text

/-- `printChange`. -/
def changeText (c : OnOffChange) : String :=
  "[" ++ c.deviceUs.elim "         ?" timeText ++ "] GPIO" ++ padded 2 (toString c.gpio.toNat) ++ " " ++
    padded 3 (onOffName c.on) ++ " (" ++ levelName c.level ++ ")"

/-- Why outputs were reset, for a person. -/
def causeText : OutputResetCause → String
  | .suspend => "USB disconnect or suspend"
  | .reconnect => "reconnected"
  | .pinConfig => "pin configuration written"

section Events
variable {ω : Type}

/-- `note`: with `--json` it goes to stderr. -/
def note (json : Bool) (message : String) : Command ω Unit :=
  if json then Command.warn message else Command.print message

/-- The body of the loop for a status report; `missed` counts this one's, too. -/
def printStatus (o : Options) (s : Go.Status) (missedNow : ℕ) (on : List (U8 × Bool)) (missed : ℕ) :
    Command ω Unit :=
  if o.json then Command.print (reportJson s on missed)
  else do
    Prog.only (0 < missedNow)
      (Command.warn ("warning: missed " ++ toString missedNow ++ " status report(s)"))
    Prog.only (s.overflow = true)
      (Command.warn "warning: the device dropped edge events (the history is incomplete)")
    Prog.only (o.all = true ∧ s.events = [] ∧ s.reason &&& Host.Reason.hostRequest = 0)
      (Command.print ("seq=" ++ toString s.seq.toNat ++ " reason=" ++
        String.intercalate "," (reasonNames s.reason)))

/-- The loop of `cmdWatch`, with its flag `connected` and its sum `missed`. -/
def printEvents (o : Options) : List Event → Bool → ℕ → Command ω Unit
  | [], _, _ => pure ()
  | e :: events, connected, missed => match e with
    | .connected _ _ _ _ reconnected => do
      Prog.only (reconnected = true) (note o.json "the device is connected again")
      printEvents o events true missed
    | .connectFailed error =>
      if !connected then throw (.library (.bus error))
      else do
        Command.warn ("warning: " ++ error.text)
        printEvents o events connected missed
    | .disconnected _ => do
      note o.json "the device was disconnected; waiting for it to come back"
      printEvents o events connected missed
    | .statusReceived s missedNow on => do
      printStatus o s missedNow on (missed + missedNow)
      printEvents o events connected (missed + missedNow)
    | .initialOnOff on => do
      Prog.only (o.json = false) (Command.print (String.intercalate " "
        (on.map fun (gpio, on) => "GPIO" ++ toString gpio.toNat ++ "=" ++ onOffName on)))
      printEvents o events connected missed
    | .onOffChange change => do
      Prog.only (o.json = false) (Command.print (changeText change))
      printEvents o events connected missed
    | .pinConfigChanged _ => do
      Prog.only (o.json = false) (Command.print "the pin configuration changed")
      printEvents o events connected missed
    | .outputsReset _ cause => do
      Prog.only (o.json = false)
        (Command.print ("outputs returned to their initial level (" ++ causeText cause ++ ")"))
      printEvents o events connected missed
    | .pinConfigRestored _ _ => printEvents o events connected missed

end Events

/-! ### The command -/

/-- The loop over the GPIOs of one list. -/
def mark (low : Bool) (gpios : List Gpio) (activeLow : Gpio → Option Bool) : Gpio → Option Bool :=
  gpios.foldl (fun activeLow n => Function.update activeLow n (some low)) activeLow

/-- The polarities that the options ask for. -/
def polarities (o : Options) : Except String (Gpio → Option Bool) := do
  let low ← parseGpioList o.activeLow
  let high ← parseGpioList o.activeHigh
  return mark false high (mark true low fun _ => none)

/-- `cmdWatch`: prints the events of a watcher until it ends. -/
def cmdWatch {ω : Type} [World ω] [Watching ω] (o : Options) : Command ω Unit := do
  match polarities o with
  | .error message => throw (.usage message false)
  | .ok activeLow =>
    match ← Prog.call fun (screen, w) => ((World.devices w).1, (screen, (World.devices w).2)) with
    | .error e => throw (.library (.bus e))
    | .ok entries => match Go.chooseDevice entries (String.ofList o.serial) with
      | .error e => throw (.library e)
      | .ok entry =>
        match ← Prog.call fun (screen, w) =>
            ((Watching.watch entry.serial activeLow w).1,
              (screen, (Watching.watch entry.serial activeLow w).2)) with
        | .error e => throw (.library (.bus e))
        | .ok (events, last) => do
          printEvents o events false 0
          match last with
          | some e => throw (.library (.bus e))
          | none => pure ()

end Hidpin.Cli
