import Hidpin.Cli.Options
import Hidpin.Cli.Print
import Hidpin.Cli.Specs
import Hidpin.Go.Device

/-! The commands that use one open device, and the list of the devices (`tools/hidpin/main.go`). -/

namespace Hidpin.Cli
open Firmware (Gpio gpioCount rawBit)
open Go (PinSetting PinConfig DeviceInfo Device maskToGpios)
open Host (World)
open Lib (Prog)

/-- How a command fails. With `showHelp` the help is printed before a usage error. -/
inductive Failure where
  | usage (message : String) (showHelp : Bool)
  | library (e : Go.Error)
  | hangs
  deriving DecidableEq

namespace Failure

/-- How a call of the library ends a command. -/
def ofStop : Go.Stop → Failure
  | .error e => library e
  | .hangs => hangs

end Failure

/-- What was printed, one text a line. -/
structure Screen where
  stdout : List String
  stderr : List String
  deriving DecidableEq

section Programs
variable {ω α : Type}

/-- A command. -/
abbrev Command (ω α : Type) := Prog (Screen × ω) Failure α

/-- A command that uses an open device. -/
abbrev Session (ω α : Type) := Prog (Device × Screen × ω) Failure α

namespace Command

/-- A line on stdout. -/
def print (text : String) : Command ω Unit :=
  Prog.update fun (screen, w) => ({ screen with stdout := screen.stdout ++ [text] }, w)

/-- A line on stderr. -/
def warn (text : String) : Command ω Unit :=
  Prog.update fun (screen, w) => ({ screen with stderr := screen.stderr ++ [text] }, w)

/-- A call of the library without a device. -/
def library (m : Prog ω Go.Stop α) : Command ω α :=
  Prog.embed Prod.snd (fun w s => (s.1, w)) Failure.ofStop m

end Command

namespace Session

/-- A program that uses the screen only. -/
def screen (m : Command ω α) : Session ω α := Prog.zoom Prod.snd (fun s d => (d.1, s)) m

/-- A line on stdout. -/
def print (text : String) : Session ω Unit := screen (Command.print text)

/-- A line on stderr. -/
def warn (text : String) : Session ω Unit := screen (Command.warn text)

/-- A call of the library on the device. -/
def device (m : Device.Io ω α) : Session ω α :=
  Prog.embed (fun s => (s.1, s.2.2)) (fun t s => (t.1, s.2.1, t.2)) Failure.ofStop m

end Session

end Programs

variable {ω : Type} [World ω]

/-- `cmdList`: the devices that are connected. -/
def cmdList (json : Bool) : Command ω Unit := do
  match ← Prog.call fun (screen, w) => ((World.devices w).1, (screen, (World.devices w).2)) with
  | .error e => throw (.library (.bus e))
  | .ok entries =>
    if json then
      Command.print (jsonArray (entries.map fun e => jsonObject
        [("serial", jsonText e.serial), ("manufacturer", jsonText e.manufacturer),
          ("product", jsonText e.product)]))
    else if entries = [] then Command.print "no hidpin device found"
    else Prog.each (fun e => Command.print (e.serial ++ "  " ++ e.manufacturer ++ " " ++ e.product)) entries

/-- The JSON text of `info`. -/
def infoJson (serial : String) (info : DeviceInfo) : String := jsonObject
  [("serial", jsonText serial), ("protocol_version", jsonNat info.protocolVersion.toNat),
    ("firmware", jsonText (firmwareVersion info)), ("board", jsonNat info.board.toNat),
    ("board_name", jsonText (boardName info)),
    ("sdk_board", jsonText (String.ofList (asciiText info.sdkBoard))),
    ("available", jsonNat info.available.toNat),
    ("available_gpios", jsonArray ((maskToGpios info.available).map fun n => jsonNat n.val)),
    ("periodic_interval_ms", jsonNat info.periodicIntervalMs.toNat),
    ("events_per_report", jsonNat info.eventsPerReport.toNat),
    ("event_queue_size", jsonNat info.eventQueueSize.toNat), ("chip", jsonNat info.chip.toNat),
    ("chip_name", jsonText (chipName info.chip)), ("chip_revision", jsonNat info.chipRevision.toNat),
    ("quirks", jsonArray ((quirkNames info).map jsonText))]

/-- The lines of `info`. -/
def infoLines (serial : String) (info : DeviceInfo) : List String :=
  ["serial number     : " ++ serial, "board             : " ++ boardName info] ++
    (if info.sdkBoard ≠ [] then ["Pico SDK board    : " ++ String.ofList (asciiText info.sdkBoard)]
      else []) ++
    ["firmware          : " ++ firmwareVersion info,
      "protocol version  : " ++ toString info.protocolVersion.toNat,
      "available GPIOs   : " ++ toString (maskToGpios info.available).length ++ " pins " ++
        formatInts (maskToGpios info.available),
      "periodic interval : " ++ toString info.periodicIntervalMs.toNat ++ " ms",
      "events per report : " ++ toString info.eventsPerReport.toNat ++ " (queue of " ++
        toString info.eventQueueSize.toNat ++ ")",
      "chip              : " ++ if info.chip ≠ 0 then
        chipName info.chip ++ " (revision " ++ toString info.chipRevision.toNat ++ ")"
        else chipName info.chip] ++
    if info.pullDownUnreliable then
      ["known problems    : internal pull-downs are unreliable (RP2350 erratum E9)"] else []

/-- `cmdInfo`: what the device says of itself. -/
def cmdInfo (json : Bool) : Session ω Unit := do
  let info ← Session.device Device.readInfo
  let serial ← Prog.gets fun s => s.1.serial
  if json then Session.print (infoJson serial info)
  else Prog.each Session.print (infoLines serial info)

/-- `warnPullDowns`: what it prints. -/
def pullDownWarning (info : DeviceInfo) (config : PinConfig) : Option String :=
  let gpios := config.pullDownGpios
  if !info.pullDownUnreliable ∨ gpios = [] then none
  else some ("warning: " ++ String.intercalate ", " (gpios.map gpioName) ++ " " ++
    (if gpios.length = 1 then "uses" else "use") ++
    " the internal pull-down, which this chip cannot rely on (RP2350 erratum E9): " ++
    "an open input can stay HIGH. Use an external pull-down of 8.2 kOhm or less with nopull, or the pull-up")

/-- A line of `config get`. -/
def configLine (config : PinConfig) (n : Gpio) : String :=
  "  GPIO" ++ padded 2 (toString n.val) ++ " " ++ settingText (config n)

/-- `cmdConfigGet`: the configuration of the available pins, and how the last write ended. -/
def cmdConfigGet (json : Bool) : Session ω Unit := do
  let report ← Session.device Device.getPinConfig
  let info ← Session.device Device.readInfo
  if json then
    Session.print (jsonObject
      [("result", jsonNat report.result.toNat), ("result_gpio", jsonNat report.resultGpio.toNat),
        ("request_id", jsonNat report.requestId.toNat),
        ("pins", gpioMap (fun s => jsonText (settingText s)) fun n =>
          if rawBit info.available n then some (report.config n) else none)])
  else do
    Session.print ("result of the last write: " ++ toString report.result.toNat ++
      " (" ++ Go.resultMessage report.result ++ ")")
    Prog.each (fun n => Session.print (configLine report.config n)) (maskToGpios info.available)

/-- A wrong argument. -/
def usageError {α : Type} (argument : String) : Except String α → Session ω α
  | .ok a => return a
  | .error message => throw (.usage ("argument " ++ argument ++ ": " ++ message) false)

/-- `cmdConfigSet`: changes the settings of some pins and prints them. -/
def cmdConfigSet (json : Bool) (specs : List (List Char)) : Session ω Unit := do
  let settings ← usageError "GPIO=SETTING" (collect parsePinSpec specs fun _ => none)
  let report ← Session.device (Device.updatePins settings)
  match ← Prog.catching some (Session.device Device.readInfo) with
  | .ok info => match pullDownWarning info report.config with
    | some warning => Session.warn warning
    | none => pure ()
  | .error _ => pure ()
  if json then
    Session.print (jsonObject
      [("request_id", jsonNat report.requestId.toNat),
        ("pins", gpioMap (fun s => jsonText (settingText s)) settings)])
  else
    Prog.each (fun n => Session.print (gpioName n ++ " is now " ++ ((settings n).elim "" settingText)))
      (sortedGpios settings)

/-- The warning of `output` about the pins that are no outputs. -/
def ignoredWarning (outputs : U32) (levels : Gpio → Option Bool) : Option String :=
  let ignored := (sortedGpios levels).filter fun n => !rawBit outputs n
  if ignored = [] then none
  else some ("warning: " ++ String.intercalate ", " (ignored.map gpioName) ++
    " is not an output pin and will be ignored")

/-- A line of `output`. -/
def outputLine (status : Go.Status) (n : Gpio) : String :=
  gpioName n ++ " = " ++ levelName (rawBit status.levels n)

/-- `cmdOutput`: drives some output pins, warns of the pins that are none, and prints the levels. -/
def cmdOutput (json : Bool) (specs : List (List Char)) : Session ω Unit := do
  let levels ← usageError "GPIO=VALUE" (collect parseOutputSpec specs fun _ => none)
  let config ← Session.device Device.pinConfig
  match ignoredWarning config.outputsMask levels with
  | some warning => Session.warn warning
  | none => pure ()
  Session.device (Device.setOutputs levels)
  let status ← Session.device Device.requestStatus
  if json then
    Session.print (jsonObject [("levels", jsonNat status.levels.toNat),
      ("outputs", jsonNat status.outputs.toNat)])
  else
    Prog.each (fun n => Session.print (outputLine status n))
      ((sortedGpios levels).filter (rawBit config.outputsMask))

end Hidpin.Cli
