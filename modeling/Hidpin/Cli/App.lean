import Hidpin.Cli.Watch

/-! The whole command (`app.run` and `run` in `tools/hidpin/main.go`): which command runs, and how it
    exits. -/

namespace Hidpin.Cli
open Firmware (Gpio gpioCount)
open Go (Device)
open Host (World)
open Lib (Prog)

/-- `usage`. -/
def usage : String :=
  "usage: hidpin [--json] \x7blist,info,watch,config,output\x7d ...\n\n" ++
  "watch and configure a hidpin device\n\n" ++
  "commands:\n" ++
  "  list                        list the connected devices\n" ++
  "  info                        show the device information\n" ++
  "  watch                       keep printing status reports\n" ++
  "  config get                  show the current pin configuration\n" ++
  "  config set GPIO=SETTING...  change the pin configuration\n" ++
  "                              (for example: 5=pullup:20 6=off 7=out:low; " ++
  "pins not named keep their setting)\n" ++
  "  output GPIO=VALUE...        change the value of output pins (for example: 7=high 8=0)\n\n" ++
  "options:\n" ++
  "  --json               print the result as JSON\n" ++
  "  --serial SERIAL      serial number of the device (optional when only one is connected)\n" ++
  "  --active-low LIST    watch: GPIOs where LOW means ON (comma separated)\n" ++
  "  --active-high LIST   watch: GPIOs where HIGH means ON (comma separated)\n" ++
  "  --all                watch: also print reports that carry no events\n"

section Run
variable {ω : Type} [World ω] [Watching ω]

/-- `withDevice`: opens the device for a command that uses one. -/
def withDevice (serial : List Char) (draws : List (Fin 255)) (f : Session ω Unit) : Command ω Unit := do
  let device ← Command.library (Go.openDevice (String.ofList serial) draws)
  Prog.zoom (fun s => (device, s)) (fun t _ => t.2) f

/-- The arguments are checked before the device is opened. -/
def checkSpecs {α : Type} (argument : String) (parse : List Char → Except String α) :
    List (List Char) → Command ω Unit
  | [] => pure ()
  | spec :: specs => match parse spec with
    | .ok _ => checkSpecs argument parse specs
    | .error message => throw (.usage ("argument " ++ argument ++ ": " ++ message) false)

/-- The commands behind `config`. -/
def runConfig (o : Options) (draws : List (Fin 255)) : List (List Char) → Command ω Unit
  | [] => throw (.usage "config: the following arguments are required: get or set" true)
  | action :: specs =>
    if action = "get".toList then withDevice o.serial draws (cmdConfigGet o.json)
    else if action = "set".toList then
      if specs = [] then throw (.usage "config set: at least one GPIO=SETTING is required" false)
      else do
        checkSpecs "GPIO=SETTING" parsePinSpec specs
        withDevice o.serial draws (cmdConfigSet o.json specs)
    else throw (.usage ("config: invalid choice " ++ quoted action ++ " (choose from get, set)") false)

/-- `app.run`. -/
def runCommand (o : Options) (draws : List (Fin 255)) : Command ω Unit :=
  if o.help then Command.print usage
  else match o.args with
    | [] => throw (.usage "the following arguments are required: command" true)
    | command :: rest =>
      if command = "list".toList then cmdList o.json
      else if command = "info".toList then withDevice o.serial draws (cmdInfo o.json)
      else if command = "watch".toList then cmdWatch o
      else if command = "config".toList then runConfig o draws rest
      else if command = "output".toList then
        if rest = [] then throw (.usage "output: at least one GPIO=VALUE is required" false)
        else do
          checkSpecs "GPIO=VALUE" parseOutputSpec rest
          withDevice o.serial draws (cmdOutput o.json rest)
      else throw (.usage ("invalid choice " ++ quoted command ++
        " (choose from list, info, watch, config, output)") false)

/-- What `run` prints about an error, and the exit status; a command that never ends has none. -/
def exit (r : Except Failure Unit) (screen : Screen) : Option ℕ × Screen :=
  match r with
  | .ok () => (some 0, screen)
  | .error (.usage message showHelp) =>
    let help := if showHelp then [usage, ""] else []
    (some 2, { screen with stderr := screen.stderr ++ help ++ ["hidpin: error: " ++ message] })
  | .error (.library e) => (some 1, { screen with stderr := screen.stderr ++ ["error: " ++ e.text] })
  | .error .hangs => (none, screen)

/-- `run`; nothing was printed before. -/
def run (argv : List (List Char)) (draws : List (Fin 255)) (w : ω) : Option ℕ × Screen × ω :=
  match parseOptions argv with
  | .error message =>
    ((exit (.error (.usage message false)) ⟨[], []⟩).1, (exit (.error (.usage message false)) ⟨[], []⟩).2, w)
  | .ok o =>
    let r := (runCommand o draws).exec (⟨[], []⟩, w)
    ((exit r.1 r.2.1).1, (exit r.1 r.2.1).2, r.2.2)

end Run

end Hidpin.Cli
