import Hidpin.Go.Device
import Hidpin.Host.Watch

/-! The watcher of the Go library (`hidpin/watch.go`, `hidpin/watch_events.go`, `hidpin/watch_loop.go`). A
    method of the loop is a program over its state and the world; what `select` may choose next are the acts.
    `emitted`, `opened` and `replies` record what happened; the code has no such fields and no method reads
    them. -/

namespace Hidpin.Go
open Firmware (Gpio gpioCount)
open Host (DeviceEntry OsError OutputResetCause World byteAt contains reportIdStatus reportLen)
open Lib (Prog)

/-! ### Time -/

/-- A `time.Duration`, in nanoseconds. -/
abbrev Duration := ℤ

def second : Duration := 1000000000
def restoreInterval : Duration := second
def settleTimeout : Duration := second
def clockWindow : Duration := 30 * second
def defaultScanInterval : Duration := second
def minDuration : Duration := -2 ^ 63
def maxDuration : Duration := 2 ^ 63 - 1

/-- What `time.Now` reads: the wall clock and the monotonic clock, in nanoseconds. -/
structure Time where
  wall : ℤ
  mono : ℤ
  deriving DecidableEq

/-- `time.Now`. -/
def timeNow {ω : Type} [World ω] (w : ω) : Time × ω :=
  let (mono, w) := World.instant w
  let (wall, w) := World.systemTime w
  (⟨wall, mono⟩, w)

/-- `Time.Sub`: the difference of the monotonic readings, as far as a duration reaches. -/
def Time.sub (t u : Time) : Duration := max minDuration (min maxDuration (t.mono - u.mono))

/-- `time.Since` at the time `n`; a time that was never set lies further back than a duration reaches. -/
def since (n : Time) (t : Option Time) : Duration := t.elim maxDuration n.sub

/-- `time.Duration(int64(a) - int64(b)) * time.Microsecond`, which wraps around. -/
def microsBetween (a b : U64) : Duration := ((a - b) * 1000#64).toInt

/-- `clockSample`: a time of the host and the time of the device that was read then. -/
structure ClockSample where
  host : Time
  device : U64
  ok : Bool
  deriving DecidableEq

/-- `clockSample.closer`. -/
def ClockSample.closer (s o : ClockSample) : Bool :=
  decide (s.host.sub o.host < microsBetween s.device o.device)

/-- `deviceClock`. -/
structure DeviceClock where
  cur : ClockSample
  prev : ClockSample
  curStart : Time
  deriving DecidableEq

namespace DeviceClock

/-- The zero value. -/
def zero : DeviceClock := ⟨⟨⟨0, 0⟩, 0, false⟩, ⟨⟨0, 0⟩, 0, false⟩, ⟨0, 0⟩⟩

/-- `deviceClock.add`: takes a sample, and starts a new window when the current one is over. -/
def add (c : DeviceClock) (host : Time) (device : U64) : DeviceClock :=
  let s : ClockSample := ⟨host, device, true⟩
  if c.cur.ok = false ∨ clockWindow ≤ host.sub c.curStart then ⟨s, c.cur, host⟩
  else if s.closer c.cur then { c with cur := s }
  else c

/-- `deviceClock.at`, which keeps the wall clock only. -/
def wallAt (c : DeviceClock) (device : U64) : ℤ :=
  let best := if c.prev.ok && c.prev.closer c.cur then c.prev else c.cur
  best.host.wall + microsBetween device best.device

end DeviceClock

/-! ### Events -/

/-- The ON/OFF of a monitored pin changed; the times are there when the moment is known. -/
structure OnOffChange where
  gpio : U8
  on : Bool
  level : Bool
  time : Option ℤ
  deviceUs : Option U64
  inferred : Bool
  deriving DecidableEq

/-- One notification from a watcher. The maps from GPIOs to ON/OFF are lists, ascending. -/
inductive Event where
  | connected (serial path : String) (info : DeviceInfo) (pinConfig : PinConfig) (reconnected : Bool)
  | disconnected (err : Error)
  | connectFailed (err : Error)
  | statusReceived (status : Status) (missed : ℕ) (on : List (U8 × Bool))
  | initialOnOff (on : List (U8 × Bool))
  | onOffChange (change : OnOffChange)
  | outputsReset (gpios : List Gpio) (cause : OutputResetCause)
  | pinConfigChanged (config : PinConfig)
  | pinConfigRestored (found : PinConfig) (count : ℕ)

/-! ### The state -/

/-- `PinSetting.IsMonitored`. -/
def PinSetting.isMonitored (s : PinSetting) : Bool :=
  decide (s.mode = modeInput ∨ s.mode = modePullUp ∨ s.mode = modePullDown)

/-- `c[gpio]`, unless it is out of range. -/
def PinConfig.entry (c : PinConfig) (gpio : U8) : Option PinSetting :=
  if h : gpio.toNat < gpioCount then some (c ⟨gpio.toNat, h⟩) else none

/-- One open device. `lastSeq` and `snapshotSeq` are there when `haveSeq` and `haveSnapshot` are set. -/
structure Connection where
  device : Device
  clock : DeviceClock
  lastSeq : Option U16
  snapshotSeq : Option U16
  awaitingConfig : Bool

/-- The state of a watcher. An alarm is the duration it was set to; while it is off there is none. -/
structure WatchLoop where
  serial : String
  target : Option PinConfig
  activeLow : U8 → Option Bool
  interval : Duration
  info : Option DeviceInfo
  config : PinConfig
  /-- A map with the keys that are looked up in it, which are bytes. -/
  known : U8 → Option Bool
  everConnected : Bool
  conn : Option Connection
  pending : List Event
  failure : String
  failures : ℕ
  restoreCount : ℕ
  lastRestore : Option Time
  scan : Option Duration
  restore : Option Duration
  settle : Option Duration

/-- What the application asks the loop to do; `levels` is a map in the order of the loop over it. -/
inductive Request where
  | setTargetPins (config : PinConfig)
  | setOutputs (levels : List (ℤ × Bool))

/-- How a method ends without a value: an error it returns, one marked with `fatalError`, a panic, or
    never. -/
inductive Halt where
  | error (e : Error)
  | fatal (e : Error)
  | panicked
  | hangs
  deriving DecidableEq

/-- The error that a caller sees. -/
def Halt.toError : Halt → Option Error
  | .error e => some e
  | _ => none

/-- How a call of the library ends a method. -/
def Stop.toHalt : Stop → Halt
  | .error e => .error e
  | .hangs => .hangs

/-- What a method of the loop works on. -/
structure Ctx (ω : Type) where
  loop : WatchLoop
  world : ω
  emitted : List Event
  /-- The loop and the world whenever a new connection is asked for its state. -/
  opened : List (WatchLoop × ω)
  replies : List (Request × Except Error Unit)

/-- A method of the watch loop. -/
abbrev Watch (ω α : Type) := Prog (Ctx ω) Halt α

namespace WatchLoop

/-- `drop`: closes the connection, if there is one. -/
def drop (l : WatchLoop) : WatchLoop :=
  if l.conn.isSome then { l with conn := none, restore := none, settle := none } else l

/-- Forgets the failed attempts. -/
def resetFailures (l : WatchLoop) : WatchLoop := { l with failure := "", failures := 0 }

/-- Deletes the known ON/OFF of the other pins. -/
def retain (l : WatchLoop) (keep : U8 → Bool) : WatchLoop :=
  { l with known := fun gpio => if keep gpio then l.known gpio else none }

/-- `setConfig`, when every known pin has an entry. -/
def setConfig (l : WatchLoop) (config : PinConfig) : WatchLoop :=
  { l.retain fun gpio => (config.entry gpio).any fun s =>
      s.isMonitored && decide ((l.config.entry gpio).map PinSetting.mode = some s.mode) with
    config }

/-- Whether `config[gpio]` is an entry for every known pin. -/
def knownInRange (l : WatchLoop) : Bool :=
  decide (∀ gpio, (l.known gpio).isSome = true → gpio.toNat < gpioCount)

end WatchLoop

/-- The pins that writing `next` over `prev` drives to their initial output level. -/
def drivenOutputs (prev next : PinConfig) : List Gpio :=
  (List.finRange gpioCount).filter fun n => decide ((next n).mode = modeOutput ∧ prev n ≠ next n)

/-- Whether a report sent by the device itself is not newer than the snapshot. -/
def Connection.isStale (c : Connection) (seq : U16) : Bool :=
  c.snapshotSeq.any fun s => decide ((seq - s).toInt ≤ 0)

namespace Watch
variable {ω : Type} {α : Type}

/-! ### Access to the state -/

/-- The state of the loop. -/
def loop : Watch ω WatchLoop := Prog.gets Ctx.loop

/-- Changes the state of the loop. -/
def setLoop (f : WatchLoop → WatchLoop) : Watch ω Unit := Prog.update fun c => { c with loop := f c.loop }

/-- `l.conn`, which is used without a check. -/
def connection : Watch ω Connection := do
  match (← loop).conn with
  | some c => return c
  | none => throw .panicked

/-- Stores the connection. -/
def setConn (conn : Connection) : Watch ω Unit := setLoop fun l => { l with conn := some conn }

/-- `config[gpio]`. -/
def index (config : PinConfig) (gpio : U8) : Watch ω PinSetting := do
  match config.entry gpio with
  | some s => return s
  | none => throw .panicked

/-- A method whose error is used. -/
def result (m : Watch ω α) : Watch ω (Except Error α) := m.catching Halt.toError

/-- A program on the device of the connection. -/
def onDevice (m : Device.Io ω α) : Watch ω α := do
  let conn ← connection
  m.embed (fun c => (conn.device, c.world))
    (fun (device, world) c => { c with world, loop := { c.loop with conn := some { conn with device } } })
      Stop.toHalt

/-- A program on a device that is not yet the connection. -/
def useDevice (device : Device) (m : Device.Io ω α) : Watch ω (α × Device) := fun c =>
  match m.exec (device, c.world) with
  | (.ok a, device, world) => (.ok (a, device), { c with world })
  | (.error e, _, world) => (.error e.toHalt, { c with world })

/-- Queues an event for the application. -/
def emit (event : Event) : Watch ω Unit :=
  Prog.update fun c =>
    { c with loop := { c.loop with pending := c.loop.pending ++ [event] }, emitted := c.emitted ++ [event] }

/-- `time.Now` in a method. -/
def now [World ω] : Watch ω Time :=
  Prog.call fun c => ((timeNow c.world).1, { c with world := (timeNow c.world).2 })

/-! ### Status reports -/

/-- The polarity of a pin: as the application wants it, or active low with the pull-up. -/
def isActiveLow (gpio : U8) : Watch ω Bool := do
  let l ← loop
  match l.activeLow gpio with
  | some low => return low
  | none => return decide ((← index l.config gpio).mode = modePullUp)

/-- The loop of `onOff`. -/
def onOff (s : Status) : List U8 → Watch ω (List (U8 × Bool))
  | [] => return []
  | gpio :: gpios => do
    let on := s.level gpio != (← isActiveLow gpio)
    return (gpio, on) :: (← onOff s gpios)

/-- Stores the ON/OFF of a pin. -/
def setKnown (gpio : U8) (on : Bool) : Watch ω Unit :=
  setLoop fun l => { l with known := Function.update l.known gpio (some on) }

/-- One edge event of a report, if the ON/OFF of its pin is known. -/
def absorbEvent (clock : DeviceClock) (s : Status) (e : EdgeEvent) : Watch ω Unit := do
  match (← loop).known e.gpio with
  | none => return ()
  | some was => do
    let on := e.level != (← isActiveLow e.gpio)
    -- An edge event always leaves the level before it, so the opposite change was lost.
    Prog.only (on = was) (emit (.onOffChange ⟨e.gpio, !on, !e.level, none, none, true⟩))
    let start := e.startUs s.timestampUs
    emit (.onOffChange ⟨e.gpio, on, e.level, start.map clock.wallAt, start, false⟩)
    setKnown e.gpio on

/-- One pin of the loop over the monitored pins; its value are the pins it adds to `learned`. -/
def absorbLevel (s : Status) (gpio : U8) : Watch ω (List (U8 × Bool)) := do
  let on := s.level gpio != (← isActiveLow gpio)
  match (← loop).known gpio with
  | none => do
    setKnown gpio on
    return [(gpio, on)]
  | some was => do
    Prog.only (was ≠ on) (emit (.onOffChange ⟨gpio, on, s.level gpio, none, none, true⟩))
    setKnown gpio on
    return []

/-- The loop over the monitored pins. -/
def absorbLevels (s : Status) : List U8 → Watch ω (List (U8 × Bool))
  | [] => return []
  | gpio :: gpios => do
    let new ← absorbLevel s gpio
    let learned ← absorbLevels s gpios
    return new ++ learned

/-- Updates the known ON/OFF from a status report and reports what changed. -/
def absorb (s : Status) : Watch ω Unit := do
  let c ← connection
  Prog.each (absorbEvent c.clock s) s.events
  let learned ← absorbLevels s ((maskToGpios s.monitored).map Gpio.toU8)
  setLoop fun l => l.retain s.isMonitored
  Prog.only (learned ≠ []) (emit (.initialOnOff learned))

/-! ### The pin configuration -/

/-- Records the pin configuration of the device and forgets the ON/OFF of pins that are no longer monitored
    or whose pull changed. -/
def setConfig (config : PinConfig) : Watch ω Unit := do
  Prog.only ((← loop).knownInRange = false) (throw .panicked)
  setLoop fun l => l.setConfig config

/-- Handles a connection that failed, usually because the device was unplugged. -/
def lost (err : Error) : Watch ω Unit := do
  if (← loop).conn.isSome then
    setLoop WatchLoop.drop
    emit (.disconnected err)
    setLoop fun l => { l with scan := some l.interval }

/-- Records that `config` was written over `found`. -/
def wrote (found config : PinConfig) : Watch ω Unit := do
  setConfig config
  setConn { (← connection) with awaitingConfig := true }
  setLoop fun l => { l with settle := some settleTimeout }
  let driven := drivenOutputs found config
  Prog.only (driven ≠ []) (emit (.outputsReset driven .pinConfig))

section World
variable [World ω]

/-- Writes the target back. A rejection is the only error. -/
def restoreTarget : Watch ω Unit := do
  let l ← loop
  match l.conn, l.target with
  | some _, some target => do
    setLoop fun l => { l with restore := none }
    let n ← now
    setLoop fun l => { l with lastRestore := some n }
    match ← result (onDevice Device.getPinConfig) with
    | .error e => lost e
    | .ok report => do
      let found := report.config
      setConfig found
      if found = target then return ()
      match ← result (onDevice (Device.setPinConfig target)) with
      | .ok _ => do
        setLoop fun l => { l with restoreCount := l.restoreCount + 1 }
        emit (.pinConfigRestored found (← loop).restoreCount)
        wrote found target
      | .error (.pinConfigRejected result gpio isLocal) =>
        throw (.error (.pinConfigRejected result gpio isLocal))
      | .error (.pinConfigConflict _ _) => setLoop fun l => { l with restore := some restoreInterval }
      | .error e => lost e
  | _, _ => return ()

/-- Follows a new configuration, or writes the target back when another program changed it. -/
def configChanged : Watch ω Unit := do
  match ← result (onDevice Device.getPinConfig) with
  | .error e => lost e
  | .ok report => do
    let changed := decide (report.config ≠ (← loop).config)
    setConfig report.config
    match (← loop).target with
    | none => Prog.only changed (emit (.pinConfigChanged report.config))
    | some target =>
      if report.config = target then return ()
      let n ← now
      let wait := restoreInterval - since n (← loop).lastRestore
      if 0 < wait then setLoop fun l => { l with restore := some wait }
      else restoreTarget

/-- The check of `setTarget` against the board, once the watcher has met it. -/
def checkTarget (config : PinConfig) : Watch ω Unit := do
  match (← loop).info with
  | none => return ()
  | some info =>
    let (result, gpio) := validatePinConfig config info.available
    if result ≠ resultOk then throw (.error (.pinConfigRejected result gpio true))

/-- `setTarget`, run for the application. -/
def setTarget (config : PinConfig) : Watch ω Unit := do
  checkTarget config
  let previous := (← loop).target
  setLoop fun l => { l with target := some config }
  match (← loop).conn with
  | none => return ()
  | some _ => do
    setLoop fun l => { l with restore := none }
    let report ← onDevice Device.getPinConfig
    let found := report.config
    setConfig found
    if found = config then return ()
    match ← result (onDevice (Device.setPinConfig config)) with
    | .ok _ => wrote found config
    | .error (.pinConfigRejected result gpio isLocal) => do
      setLoop fun l => { l with target := previous }
      throw (.error (.pinConfigRejected result gpio isLocal))
    | .error (.pinConfigConflict expected seen) => do
      setLoop fun l => { l with restore := some restoreInterval }
      throw (.error (.pinConfigConflict expected seen))
    | .error e => throw (.error e)

/-! ### Receiving -/

/-- Handles a status report: what it tells of the device, then the events and levels, when they can be
    used. -/
def status (s : Status) (at' : Time) (missed : ℕ) : Watch ω Unit := do
  let c ← connection
  setConn { c with clock := c.clock.add at' s.timestampUs }
  emit (.statusReceived s missed (← onOff s ((maskToGpios s.monitored).map Gpio.toU8)))
  let outputs := maskToGpios s.outputs
  Prog.only (contains s.reason Host.Reason.outputReset ∧ outputs ≠ [])
    (emit (.outputsReset outputs .suspend))
  let hostRequest := contains s.reason Host.Reason.hostRequest
  let stale := !hostRequest && c.isStale s.seq
  Prog.only (!hostRequest && !stale) (setLoop fun l =>
    { l with conn := l.conn.map fun c => { c with snapshotSeq := none } })
  let configChangedBit := contains s.reason Host.Reason.configChanged
  Prog.only (configChangedBit && !stale) (setLoop fun l =>
    { l with conn := l.conn.map fun c => { c with awaitingConfig := false }, settle := none })
  Prog.only configChangedBit configChanged
  match (← loop).conn with
  | none => return ()
  | some c =>
    if stale || c.awaitingConfig || (hostRequest && s.moreEvents) then return ()
    absorb s

/-- What the reader of the connection hands over; a report that is not a status report is ignored. -/
def received (r : Except OsError (List U8)) (at' : Time) : Watch ω Unit := do
  match r with
  | .error e => lost (.os "" e)
  | .ok report =>
    if report.length < reportLen ∨ byteAt report 0 ≠ reportIdStatus then return ()
    match decodeStatus ((report.take reportLen).tail) with
    | .error _ => return ()
    | .ok s => do
      let c ← connection
      setConn { c with lastSeq := some s.seq }
      status s at' (c.lastSeq.elim 0 fun last => (s.seq - last - 1).toNat)

/-- Asks the device for its current state and takes it as the reference for later reports. -/
def snapshot : Watch ω Unit := do
  match ← result (onDevice Device.requestStatus) with
  | .error e => lost e
  | .ok s => do
    -- With edge events still queued the levels are ahead of the reports that will carry them.
    let c ← connection
    setConn { c with snapshotSeq := if s.seq ≠ 0 ∧ s.moreEvents = false then some s.seq else none }
    status s (← now) 0

/-! ### Connecting -/

/-- Notes a failed attempt to use the device. A cause is reported when it happens twice in a row. -/
def failed (err : Error) : Watch ω Unit := do
  setLoop fun l => if err.text ≠ l.failure then { l with failure := err.text, failures := 0 } else l
  setLoop fun l => { l with failures := l.failures + 1 }
  if (← loop).failures = 2 then emit (.connectFailed err)

/-- What `connect` does once the device has the pin configuration it keeps. -/
def connected (entry : DeviceEntry) (info : DeviceInfo) (device : Device) (found : PinConfig)
    (driven : List Gpio) (awaitingConfig : Bool) : Watch ω Unit := do
  setConn { device, clock := .zero, lastSeq := none, snapshotSeq := none, awaitingConfig }
  setLoop WatchLoop.resetFailures
  let reconnected := (← loop).everConnected
  setLoop fun l => { l with everConnected := true }
  setConfig found
  emit (.connected entry.serial entry.path info found reconnected)
  -- Losing the connection always sends the outputs back to their initial level.
  let outputs := maskToGpios found.outputsMask
  (if reconnected ∧ outputs ≠ [] then emit (.outputsReset outputs .reconnect)
    else Prog.only (driven ≠ []) (emit (.outputsReset driven .pinConfig)))
  if awaitingConfig then setLoop fun l => { l with settle := some settleTimeout }
  else
    Prog.update fun c => { c with opened := c.opened ++ [(c.loop, c.world)] }
    snapshot

/-- Opens the device; `draws` is what the random numbers of its request ids will be. -/
def connect (entry : DeviceEntry) (draws : List (Fin 255)) : Watch ω Unit := do
  match ← Prog.call fun c =>
      ((World.openDevice entry c.world).1, { c with world := (World.openDevice entry c.world).2 }) with
  | .error e => throw (.error (.bus e))
  | .ok () => do
    let (info, device) ← useDevice (.new entry.serial draws) Device.readInfo
    setLoop fun l => { l with info := some info }
    let (report, device) ← useDevice device Device.getPinConfig
    let found := report.config
    match (← loop).target with
    | none => connected entry info device found [] false
    | some target =>
      if found = target then connected entry info device found [] false
      else
        match ← result (useDevice device (Device.setPinConfig target)) with
        | .error (.pinConfigRejected result gpio isLocal) =>
          throw (.fatal (.pinConfigRejected result gpio isLocal))
        | .error e => throw (.error e)
        | .ok (_, device) => connected entry info device target (drivenOutputs found target) true

/-- Looks for the device again after the scan interval. -/
def scanLater : Watch ω Unit := setLoop fun l => { l with scan := some l.interval }

/-- What is returned when several devices fit. -/
def severalDevices (entries : List DeviceEntry) : Error :=
  .message ("several devices are connected; set the serial number of the one to watch: " ++
    String.intercalate ", " (entries.map DeviceEntry.serial))

/-- Looks for the device and connects to it. Only a fatal error of `connect` is returned, not any other. -/
def tryConnect (draws : List (Fin 255)) : Watch ω Unit := do
  match ← Prog.call fun c => ((World.devices c.world).1, { c with world := (World.devices c.world).2 }) with
  | .error .unsupportedPlatform => throw (.error (.bus .unsupportedPlatform))
  | .error e => do
    failed (.bus e)
    scanLater
  | .ok entries => do
    let l ← loop
    let matching := entries.filter fun e => decide (l.serial = "" ∨ e.serial = l.serial)
    match matching with
    | [] => do
      setLoop WatchLoop.resetFailures
      scanLater
    | entry :: others =>
      if l.serial = "" ∧ others ≠ [] then throw (.error (severalDevices matching))
      else
        setLoop fun l => { l with serial := entry.serial }
        match ← result (connect entry draws) with
        | .ok () => return ()
        | .error e => do
          failed e
          scanLater

/-! ### The loop -/

/-- `Device.SetOutputs` of a map: nothing is sent when a key is no GPIO. -/
def setOutputs (levels : List (ℤ × Bool)) : Device.Io ω Unit := do
  match levels.find? fun entry => decide (entry.1 < 0 ∨ (gpioCount : ℤ) ≤ entry.1) with
  | some (gpio, _) => throw (.error (.message ("GPIO" ++ toString gpio ++ " is out of range (0-29)")))
  | none =>
    Device.setOutputs fun n => (levels.find? fun entry => decide (entry.1 = (n.val : ℤ))).map Prod.snd

/-- `ErrDisconnected`. -/
def errDisconnected : Error := .message "the hidpin device is not connected"

/-- Runs a request of the application and replies. -/
def serve (request : Request) : Watch ω Unit := do
  let reply ← result (match request with
    | .setTargetPins config => setTarget config
    | .setOutputs levels => do
      match (← loop).conn with
      | none => throw (.error errDisconnected)
      | some _ => onDevice (setOutputs levels))
  Prog.update fun c => { c with replies := c.replies ++ [(request, reply)] }

end World

end Watch

/-- What `select` finds: the application takes an event, a request, what the reader hands over, an alarm, or
    the end of the context or of the watcher. A scan comes with the random numbers of the device it may
    open. -/
inductive Act where
  | take
  | request (request : Request)
  | report (r : Except OsError (List U8)) (at' : Time)
  | scan (draws : List (Fin 255))
  | restore
  | settle
  | done

/-- The mask of every GPIO number. -/
def allGpios : U32 := 0x3FFFFFFF

namespace WatchLoop

/-- Whether `select` can choose an act. While an event waits the device is not read, and a configuration that
    `SetTargetPins` refuses does not reach the loop. -/
def enabled (l : WatchLoop) : Act → Bool
  | .take => !l.pending.isEmpty
  | .request (.setTargetPins config) => decide ((validatePinConfig config allGpios).1 = resultOk)
  | .request (.setOutputs _) => true
  | .report _ _ => l.pending.isEmpty && l.conn.isSome
  | .scan _ => l.scan.isSome
  | .restore => l.restore.isSome
  | .settle => l.settle.isSome
  | .done => true

end WatchLoop

namespace Watch
variable {ω : Type} [World ω]

/-- One turn of `loop`; the value says whether it goes on. -/
def turn : Act → Watch ω Bool
  | .take => do
    setLoop fun l => { l with pending := l.pending.tail }
    return true
  | .request request => do
    serve request
    return true
  | .report r at' => do
    received r at'
    return true
  | .scan draws => do
    setLoop fun l => { l with scan := none }
    tryConnect draws
    return true
  | .restore => do
    setLoop fun l => { l with restore := none }
    restoreTarget
    return true
  | .settle => do
    setLoop fun l => { l with settle := none }
    match (← loop).conn with
    | none => return true
    | some c => do
      setConn { c with awaitingConfig := false }
      snapshot
      return true
  | .done => return false

end Watch

/-- What `Watch` watches and how; `activeLow` is a map, and its keys are GPIO numbers. -/
structure WatchOptions where
  serial : String
  targetPins : Option PinConfig
  activeLow : Gpio → Option Bool
  scanInterval : ℕ

/-- A watcher; `err` is why it stopped. -/
structure Watcher (ω : Type) where
  ctx : Ctx ω
  /-- Whether `loop` runs. -/
  alive : Bool
  err : Option Error

namespace Watcher
variable {ω : Type} [World ω]

/-- The watcher that `Watch` starts. -/
def start (o : WatchOptions) (w : ω) : Watcher ω where
  ctx :=
    { loop :=
        { serial := o.serial
          target := o.targetPins
          activeLow gpio := if h : gpio.toNat < gpioCount then o.activeLow ⟨gpio.toNat, h⟩ else none
          interval := if o.scanInterval = 0 then defaultScanInterval else o.scanInterval
          info := none
          config _ := .unused
          known _ := none
          everConnected := false
          conn := none
          pending := []
          failure := ""
          failures := 0
          restoreCount := 0
          lastRestore := none
          scan := some 0
          restore := none
          settle := none }
      world := w
      emitted := []
      opened := []
      replies := [] }
  alive := true
  err := none

/-- The end of `run`. After an error `flush` still delivers what is pending. -/
def stopped (c : Ctx ω) (err : Option Error) : Watcher ω :=
  { ctx := { c with
      loop := { c.loop.drop with scan := none, pending := if err.isSome then c.loop.pending else [] } }
    alive := false
    err }

/-- What follows an act; one that `select` cannot choose is none. -/
def step (w : Watcher ω) (act : Act) : Watcher ω :=
  if w.alive && w.ctx.loop.enabled act then
    match (Watch.turn act).exec w.ctx with
    | (.ok true, c) => { w with ctx := c }
    | (.ok false, c) => stopped c none
    | (.error (.error e), c) => stopped c (some e)
    | (.error (.fatal e), c) => stopped c (some e)
    | (.error _, c) => { w with ctx := c, alive := false }
  else w

end Watcher

end Hidpin.Go
