import Hidpin.Host.Watch
import Hidpin.Lib.Run

/-! A watcher in use: the watch thread and the calls of the application, in any order. The critical
    sections of the mailbox and the iterations of the watch loop are the steps. -/

namespace Hidpin.Host
open Lib

/-- What `watch` watches and how; `activeLow` is a map, ascending. -/
structure WatchOptions where
  serial : Option String
  targetPins : Option PinConfig
  activeLow : List (U8 × Bool)
  scanInterval : ℕ

/-- A watcher and its thread. -/
structure Watcher (ω : Type) where
  ctx : Ctx ω
  /-- Whether the watch thread runs. -/
  alive : Bool

/-- What happens next: the watch thread goes on, or the application takes an event, calls
    `set_target_pins` or `set_outputs`, or closes the watcher. -/
inductive Input where
  | turn
  | take
  | setTargetPins (config : PinConfig)
  | setOutputs (levels : List (U8 × Bool))
  | close

namespace Ctx
variable {ω : Type}

/-- The end of `run`: what happened before a fatal error is still delivered. -/
def finish (c : Ctx ω) : Option Error → Ctx ω
  | some error =>
    { c with
      loop := { c.loop.dropConnection with pending := [] }
      shared :=
        { c.shared with
          out := c.shared.out ++ c.loop.pending, error := some error, finished := true, requests := [] } }
  | none =>
    { c with
      loop := { c.loop.dropConnection with pending := [] }
      shared := { c.shared with out := [], finished := true, requests := [] } }

/-- `call`: a request for the watch thread, refused once the watcher stops. -/
def call (c : Ctx ω) (request : Request) : Ctx ω :=
  if c.shared.finished || c.shared.stopping then c
  else { c with shared := { c.shared with requests := c.shared.requests ++ [request] } }

end Ctx

namespace Watcher
variable {ω : Type} [World ω]

/-- The watcher that `watch` starts. -/
def start (o : WatchOptions) (w : ω) : Watcher ω where
  ctx :=
    { loop :=
        { serial := o.serial
          target := o.targetPins
          activeLow gpio := (o.activeLow.find? fun entry => decide (entry.1 = gpio)).map Prod.snd
          interval := o.scanInterval
          pending := []
          info := none
          config := .unused
          known _ := none
          everConnected := false
          conn := none
          failure := ""
          failures := 0
          restoreCount := 0
          lastRestore := none
          scanAt := some (World.instant w).1
          restoreAt := none
          settleAt := none }
      world := (World.instant w).2
      shared := { out := [], requests := [], stopping := false, finished := false, error := none }
      serving := []
      emitted := []
      absorbed := []
      asked := []
      replies := [] }
  alive := true

/-- The checks of `watch` on the options. -/
def check (o : WatchOptions) : Except Error Unit := do
  if o.scanInterval = 0 then throw (.invalidArgument "the scan interval must be positive")
  match o.targetPins with
  | none => pure ()
  | some target =>
    let (result, gpio) := validatePinConfig target allGpios
    if result ≠ .ok then throw (.pinConfigRejected result gpio true)
  match o.activeLow.find? fun entry => decide (gpioCount ≤ entry.1.toNat) with
  | none => pure ()
  | some (gpio, _) =>
    throw (.invalidArgument ("GPIO" ++ toString gpio.toNat ++ " is out of range (0-29)"))

/-- `Watcher::watch`. -/
def watch (o : WatchOptions) (w : ω) : Except Error (Watcher ω) := do
  check o
  return start o w

/-- The watch thread goes on until the loop returns. -/
def turn (w : Watcher ω) : Watcher ω :=
  if w.alive then
    match Watch.iterate.exec w.ctx with
    | (.ok true, ctx) => { ctx, alive := true }
    | (.ok false, ctx) => { ctx := ctx.finish none, alive := false }
    | (.error (.fatal error), ctx) => { ctx := ctx.finish (some error), alive := false }
    | (.error _, ctx) => { ctx, alive := false }
  else w

/-- What the thread or the application does next. -/
def step (w : Watcher ω) : Input → Watcher ω
  | .turn => w.turn
  | .take =>
    { w with ctx := { w.ctx with shared := { w.ctx.shared with out := w.ctx.shared.out.tail } } }
  | .setTargetPins config =>
    if (validatePinConfig config allGpios).1 ≠ .ok then w
    else { w with ctx := w.ctx.call (.setTargetPins config) }
  | .setOutputs levels => { w with ctx := w.ctx.call (.setOutputs levels) }
  | .close => { w with ctx := { w.ctx with shared := { w.ctx.shared with stopping := true } } }

/-- What an iteration establishes for each way it ends holds after the turn. -/
theorem turn_of_wp {P : Ctx ω → Prop} {w : Watcher ω} (hw : P w.ctx)
    (hiterate : Watch.iterate.wp (fun r c => match r with
      | .ok true => P c
      | .ok false => P (c.finish none)
      | .error (.fatal error) => P (c.finish (some error))
      | .error _ => P c) w.ctx) : P w.turn.ctx := by
  unfold turn
  unfold Prog.wp at hiterate
  split
  · rcases h : Watch.iterate.exec w.ctx with ⟨r, ctx⟩
    rw [h] at hiterate
    rcases r with e | (_ | _)
    · cases e <;> exact hiterate
    · exact hiterate
    · exact hiterate
  · exact hw

end Watcher

/-! ### Prepared answers -/

/-- A world with one device and prepared answers of its transport; its clocks stand still. -/
structure Script where
  features : List (Except OsError (List U8))
  sends : List (Except OsError Unit)
  inputs : List (Except OsError (List U8))
  reads : List (Except OsError (List U8))

instance : World Script where
  devices s := (.ok [⟨"/dev/hidraw0", "E6614103E7", "hidpin", "hidpin"⟩], s)
  openDevice _ s := (.ok (), s)
  read _ s := (s.reads.headD (.ok []), { s with reads := s.reads.tail })
  write _ s := (.ok (), s)
  getFeatureReport _ s := (s.features.headD (.ok []), { s with features := s.features.tail })
  sendFeatureReport _ s := (s.sends.headD (.ok ()), { s with sends := s.sends.tail })
  getInputReport _ s := (s.inputs.headD (.ok []), { s with inputs := s.inputs.tail })
  instant s := (0, s)
  systemTime s := (0, s)
  seed s := ((0, 0), s)

namespace Script

/-- The device information report of a board with all pins. -/
def deviceInfo : List U8 :=
  [2, 1, 0, 1, 0, 0, 30, 0xE8, 3, 0xFF, 0xFF, 0xFF, 0x3F, 7, 32, 0, 0, 0] ++ List.replicate 46 0

/-- The pin configuration report of a device that nobody configured. -/
def unconfigured : List U8 := reportIdPinConfig :: PinConfigReport.encode ⟨.ok, resultGpioNone, 0, .unused⟩

/-- The answer to a status request, without monitored pins. -/
def status : List U8 := [1, 0, 0, 0x80] ++ List.replicate 60 0

end Script

end Hidpin.Host
