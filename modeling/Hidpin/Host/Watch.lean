import Hidpin.Host.Device

/-! The watch loop (`rust/src/watch.rs`): its state and its methods. A method is a program over the loop,
    the world and the mailbox it shares with the application. `emitted`, `absorbed`, `asked` and
    `replies` record what happened; the code has no such fields and no method reads them. -/

namespace Hidpin.Host
open Lib

def millisecond : ℕ := 1000000
def readPoll : ℕ := 50 * millisecond
def restoreInterval : ℕ := 1000 * millisecond
def settleTimeout : ℕ := 1000 * millisecond
def outCapacity : ℕ := 16

/-! ### Events -/

/-- Why output pins went back to their initial output level. -/
inductive OutputResetCause where
  | suspend
  | reconnect
  | pinConfig
  deriving DecidableEq, Repr

/-- The ON/OFF of a monitored pin changed. -/
structure OnOffChange where
  gpio : U8
  on : Bool
  level : Bool
  time : Option SystemTime
  deviceUs : Option U64
  inferred : Bool
  deriving DecidableEq, Repr

/-- One notification from a watcher. The maps from GPIOs to ON/OFF are lists, ascending. -/
inductive Event where
  | connected (serial path : String) (info : DeviceInfo) (pinConfig : PinConfig) (reconnected : Bool)
  | disconnected (error : Error)
  | connectFailed (error : Error)
  | statusReceived (status : StatusReport) (missed : ℕ) (on : List (U8 × Bool))
  | initialOnOff (on : List (U8 × Bool))
  | onOffChange (change : OnOffChange)
  | outputsReset (gpios : List U8) (cause : OutputResetCause)
  | pinConfigChanged (config : PinConfig)
  | pinConfigRestored (found : PinConfig) (count : ℕ)

/-! ### The state -/

/-- One open device, from opening it until it is lost or closed. -/
structure Connection where
  device : Device
  clock : DeviceClock
  lastSeq : Option U16
  /-- The seq of the status requested after connecting. -/
  snapshotSeq : Option U16
  /-- Set from writing the pin configuration until the device reports CONFIG_CHANGED. -/
  awaitingConfig : Bool

/-- The fields of the watch loop. An alarm that is off has no time. -/
structure WatchLoop where
  serial : Option String
  target : Option PinConfig
  activeLow : U8 → Option Bool
  interval : ℕ
  pending : List Event
  info : Option DeviceInfo
  /-- The pin configuration of the device, as last seen. -/
  config : PinConfig
  /-- The ON/OFF of monitored pins, kept across connections. -/
  known : U8 → Option Bool
  everConnected : Bool
  conn : Option Connection
  failure : String
  failures : ℕ
  restoreCount : ℕ
  lastRestore : Option Instant
  scanAt : Option Instant
  restoreAt : Option Instant
  settleAt : Option Instant

/-- What the application asks the watch thread to do. -/
inductive Request where
  | setTargetPins (config : PinConfig)
  | setOutputs (levels : List (U8 × Bool))

/-- The mailbox between the application and the watch thread. -/
structure Shared where
  out : List Event
  requests : List Request
  stopping : Bool
  finished : Bool
  error : Option Error

/-- An event and the pin configuration the loop had when it emitted it. -/
structure Emitted where
  event : Event
  config : PinConfig

/-- A status report the loop updated its known ON/OFF from: the loop and the world before, the events
    this emitted, and the loop after. -/
structure Absorbed (ω : Type) where
  report : StatusReport
  before : WatchLoop
  world : ω
  events : List Event
  after : WatchLoop

/-- The answer to a status request of the loop, and the loop and the world when it was taken as the
    reference. -/
structure Asked (ω : Type) where
  report : StatusReport
  loop : WatchLoop
  world : ω

/-- What a method of the loop works on. -/
structure Ctx (ω : Type) where
  loop : WatchLoop
  world : ω
  shared : Shared
  /-- The requests taken from the mailbox that are still to be run. -/
  serving : List Request
  emitted : List Emitted
  absorbed : List (Absorbed ω)
  asked : List (Asked ω)
  replies : List (Request × Except Error Unit)

/-- A method of the watch loop. -/
abbrev Watch (ω α : Type) := Prog (Ctx ω) Stop α

namespace WatchLoop

/-- The polarity of a pin: as the application wants it, or active low with the pull-up. -/
def isActiveLow (l : WatchLoop) (gpio : U8) : Bool :=
  match l.activeLow gpio with
  | some activeLow => activeLow
  | none => decide ((l.config.get gpio).mode = .pullUp)

/-- The ON/OFF of every monitored pin in a report. -/
def onOff (l : WatchLoop) (report : StatusReport) : List (U8 × Bool) :=
  (maskToGpios report.monitored).map fun gpio => (gpio, report.level gpio != l.isActiveLow gpio)

/-- Keeps the known ON/OFF of some pins. -/
def retain (l : WatchLoop) (keep : U8 → Bool) : WatchLoop :=
  { l with known := fun gpio => if keep gpio then l.known gpio else none }

/-- Records the pin configuration of the device and forgets the ON/OFF of pins that are no longer
    monitored or whose pull changed. -/
def setConfig (l : WatchLoop) (config : PinConfig) : WatchLoop :=
  { l.retain fun gpio =>
      (config.get gpio).isMonitored && decide ((config.get gpio).mode = (l.config.get gpio).mode) with
    config }

/-- Whether `config[gpio]` is an entry for every known pin. -/
def knownInRange (l : WatchLoop) : Bool :=
  decide (∀ gpio, (l.known gpio).isSome = true → gpio.toNat < gpioCount)

/-- Whether `config[gpio]` is an entry, when the polarity of the pin is looked up there. -/
def polarityInRange (l : WatchLoop) (gpio : U8) : Bool :=
  (l.activeLow gpio).isSome || decide (gpio.toNat < gpioCount)

/-- Closes the connection, if there is one. -/
def dropConnection (l : WatchLoop) : WatchLoop :=
  if l.conn.isSome then { l with conn := none, restoreAt := none, settleAt := none } else l

/-- Forgets the failed attempts. -/
def resetFailures (l : WatchLoop) : WatchLoop := { l with failure := "", failures := 0 }

end WatchLoop

/-- Whether a report sent by the device itself is not newer than the snapshot. -/
def Connection.isStale (c : Connection) (seq : U16) : Bool :=
  match c.snapshotSeq with
  | none => false
  | some snapshot => decide (seq - snapshot = 0 ∨ 0x8000 ≤ seq - snapshot)

/-- The pins that writing `new` over `prev` drives to their initial output level. -/
def drivenOutputs (prev new : PinConfig) : List U8 :=
  ((List.finRange gpioCount).filter fun n => (new n).isOutput && decide (prev n ≠ new n)).map Gpio.toU8

namespace Watch
variable {ω : Type} [World ω] {α : Type}

/-! ### Access to the state -/

/-- The state of the loop. -/
def loop : Watch ω WatchLoop := Prog.gets Ctx.loop

/-- Changes the state of the loop. -/
def setLoop (f : WatchLoop → WatchLoop) : Watch ω Unit := Prog.update fun c => { c with loop := f c.loop }

/-- `Instant::now`. -/
def instant : Watch ω Instant :=
  Prog.call fun c => ((World.instant c.world).1, { c with world := (World.instant c.world).2 })

/-- `SystemTime::now`. -/
def systemTime : Watch ω SystemTime :=
  Prog.call fun c => ((World.systemTime c.world).1, { c with world := (World.systemTime c.world).2 })

/-- `expect("connected")`. -/
def connection : Watch ω Connection := do
  match (← loop).conn with
  | some conn => return conn
  | none => throw .panicked

/-- Stores the connection. -/
def setConn (conn : Connection) : Watch ω Unit := setLoop fun l => { l with conn := some conn }

/-- Indexing a pin configuration with GPIO numbers that may be out of range. -/
def indexed (inRange : Bool) : Watch ω Unit := Prog.only (inRange = false) (throw .panicked)

/-- `set_config`. -/
def setConfig (config : PinConfig) : Watch ω Unit := do
  indexed (← loop).knownInRange
  setLoop fun l => l.setConfig config

/-- The outcome of a call that returns a `Result`. -/
def result (m : Watch ω α) : Watch ω (Except Error α) := m.catching Stop.toError

/-- A program on a device that is not yet the connection. -/
def useDevice (device : Device) (m : Device.Io ω α) : Watch ω (α × Device) := fun c =>
  match m.exec (device, c.world) with
  | (.ok a, device, world) => (.ok (a, device), { c with world })
  | (.error e, _, world) => (.error e, { c with world })

/-- A program on the device of the connection. -/
def onDevice (m : Device.Io ω α) : Watch ω α := do
  let conn ← connection
  m.zoom (fun c => (conn.device, c.world)) fun (device, world) c =>
    { c with world, loop := { c.loop with conn := some { conn with device } } }

/-- Queues an event for the application. -/
def emit (event : Event) : Watch ω Unit :=
  Prog.update fun c =>
    { c with
      loop := { c.loop with pending := c.loop.pending ++ [event] }
      emitted := c.emitted ++ [⟨event, c.loop.config⟩] }

/-! ### Status reports -/

/-- `DeviceClock::at` on the clock of the connection. -/
def clockAt (startUs : U64) : Watch ω SystemTime := do
  let conn ← connection
  let now ← instant
  let wall ← systemTime
  match conn.clock.wallAt startUs now wall with
  | some time => return time
  | none => throw .panicked

/-- The wall-clock time of a moment, where it is known. -/
def clockAt? : Option U64 → Watch ω (Option SystemTime)
  | none => return none
  | some startUs => return some (← clockAt startUs)

/-- A change found by comparing levels. -/
def emitInferred (gpio : U8) (on level : Bool) : Watch ω Unit :=
  emit (.onOffChange ⟨gpio, on, level, none, none, true⟩)

/-- One edge event of a report, if the ON/OFF of its pin is known. -/
def absorbEvent (report : StatusReport) (event : EdgeEvent) : Watch ω Unit := do
  let l ← loop
  match l.known event.gpio with
  | none => return ()
  | some was =>
    indexed (l.polarityInRange event.gpio)
    let on := event.level != l.isActiveLow event.gpio
    -- An edge event always leaves the level before it, so the opposite change was lost.
    Prog.only (on = was) (emitInferred event.gpio (!on) (!event.level))
    let start := event.startUs report.timestampUs
    let time ← clockAt? start
    emit (.onOffChange ⟨event.gpio, on, event.level, time, start, false⟩)
    setLoop fun l => { l with known := Function.update l.known event.gpio (some on) }

/-- One pin of the loop over the monitored pins; its value are the pins it adds to `learned`. -/
def absorbLevel (report : StatusReport) (gpio : U8) : Watch ω (List (U8 × Bool)) := do
  let l ← loop
  let on := report.level gpio != l.isActiveLow gpio
  match l.known gpio with
  | none => do
    setLoop fun l => { l with known := Function.update l.known gpio (some on) }
    return [(gpio, on)]
  | some was => do
    Prog.only (was ≠ on) (emitInferred gpio on (report.level gpio))
    setLoop fun l => { l with known := Function.update l.known gpio (some on) }
    return []

/-- The loop over the monitored pins. -/
def absorbLevels (report : StatusReport) : List U8 → Watch ω (List (U8 × Bool))
  | [] => return []
  | gpio :: gpios => do
    let new ← absorbLevel report gpio
    let learned ← absorbLevels report gpios
    return new ++ learned

/-- Updates the known ON/OFF from a status report and reports what changed. -/
def absorb (report : StatusReport) : Watch ω Unit := do
  let before ← Prog.gets id
  Prog.each (absorbEvent report) report.events
  let learned ← absorbLevels report (maskToGpios report.monitored)
  setLoop fun l => l.retain report.isMonitored
  Prog.only (learned ≠ []) (emit (.initialOnOff learned))
  Prog.update fun c =>
    { c with
      absorbed := c.absorbed ++ [⟨report, before.loop, before.world,
        (c.emitted.drop before.emitted.length).map Emitted.event, c.loop⟩] }

/-! ### The pin configuration -/

/-- Handles a connection that failed, usually because the device was unplugged. -/
def lost (error : Error) : Watch ω Unit := do
  if (← loop).conn.isSome then
    setLoop WatchLoop.dropConnection
    emit (.disconnected error)
    let now ← instant
    setLoop fun l => { l with scanAt := some (now + l.interval) }

/-- Records that `config` was written over `found`. -/
def wrote (found config : PinConfig) : Watch ω Unit := do
  setConfig config
  setLoop fun l => { l with conn := l.conn.map fun conn => { conn with awaitingConfig := true } }
  let now ← instant
  setLoop fun l => { l with settleAt := some (now + settleTimeout) }
  let driven := drivenOutputs found config
  Prog.only (driven ≠ []) (emit (.outputsReset driven .pinConfig))

/-- Writes the target back over what another program wrote. A rejection by the device is fatal. -/
def restoreTarget : Watch ω Unit := do
  let l ← loop
  match l.target, l.conn with
  | some target, some _ => do
    setLoop fun l => { l with restoreAt := none }
    let now ← instant
    setLoop fun l => { l with lastRestore := some now }
    match ← result (onDevice Device.getPinConfig) with
    | .error e => lost e
    | .ok read => do
      let found := read.config
      setConfig found
      if found = target then return ()
      match ← result (onDevice (Device.setPinConfig target)) with
      | .ok _ => do
        setLoop fun l => { l with restoreCount := l.restoreCount + 1 }
        emit (.pinConfigRestored found (← loop).restoreCount)
        wrote found target
      | .error (.pinConfigRejected result gpio isLocal) =>
        throw (.fatal (.pinConfigRejected result gpio isLocal))
      | .error (.pinConfigConflict _ _) => do
        let now ← instant
        setLoop fun l => { l with restoreAt := some (now + restoreInterval) }
      | .error e => lost e
  | _, _ => return ()

/-- Follows a new configuration, or writes the target back when another program changed it. -/
def configChanged : Watch ω Unit := do
  match ← result (onDevice Device.getPinConfig) with
  | .error e => lost e
  | .ok read => do
    let config := read.config
    let changed := decide (config ≠ (← loop).config)
    setConfig config
    let l ← loop
    match l.target with
    | none => if changed then emit (.pinConfigChanged config)
    | some target =>
      if config = target then return ()
      match l.lastRestore with
      | none => restoreTarget
      | some last => do
        let since := (← instant) - last
        if since < restoreInterval then
          let now ← instant
          setLoop fun l => { l with restoreAt := some (now + (restoreInterval - since)) }
        else restoreTarget

/-- The check of `set_target` against the board, once the watcher has met it. -/
def checkTarget (config : PinConfig) : Watch ω Unit := do
  match (← loop).info with
  | none => return ()
  | some info =>
    let (result, gpio) := validatePinConfig config info.available
    if result ≠ .ok then throw (.error (.pinConfigRejected result gpio true))

/-- `set_target`, run for the application. -/
def setTarget (config : PinConfig) : Watch ω Unit := do
  checkTarget config
  let previous := (← loop).target
  setLoop fun l => { l with target := some config }
  match (← loop).conn with
  | none => return ()
  | some _ => do
    setLoop fun l => { l with restoreAt := none }
    let read ← onDevice Device.getPinConfig
    let found := read.config
    setConfig found
    if found = config then return ()
    match ← result (onDevice (Device.setPinConfig config)) with
    | .ok _ => wrote found config
    | .error (.pinConfigRejected result gpio isLocal) => do
      setLoop fun l => { l with target := previous }
      throw (.error (.pinConfigRejected result gpio isLocal))
    | .error (.pinConfigConflict expected seen) => do
      let now ← instant
      setLoop fun l => { l with restoreAt := some (now + restoreInterval) }
      throw (.error (.pinConfigConflict expected seen))
    | .error e => throw (.error e)

/-! ### Receiving -/

/-- Handles a status report: what it tells of the device, then the events and levels, when they can be
    used. -/
def status (report : StatusReport) (at' : Instant) (missed : ℕ) : Watch ω Unit := do
  let on := (← loop).onOff report
  let conn ← connection
  let hostRequest := contains report.reason Reason.hostRequest
  let stale := !hostRequest && conn.isStale report.seq
  let configChangedBit := contains report.reason Reason.configChanged
  setConn
    { conn with
      clock := conn.clock.add at' report.timestampUs
      snapshotSeq := if hostRequest || stale then conn.snapshotSeq else none
      awaitingConfig := conn.awaitingConfig && !(configChangedBit && !stale) }
  Prog.only (configChangedBit && !stale) (setLoop fun l => { l with settleAt := none })
  emit (.statusReceived report missed on)
  let outputs := maskToGpios report.outputs
  Prog.only (contains report.reason Reason.outputReset && !outputs.isEmpty)
    (emit (.outputsReset outputs .suspend))
  Prog.only configChangedBit configChanged
  match (← loop).conn with
  | none => return ()
  | some conn =>
    if stale || conn.awaitingConfig || (hostRequest && report.moreEvents) then return ()
    absorb report

/-- A report read from the device; one that is not a status report is ignored. -/
def received (data : List U8) (at' : Instant) : Watch ω Unit := do
  if data.length < reportLen ∨ byteAt data 0 ≠ reportIdStatus then return ()
  match decodeStatus ((data.take reportLen).tail) with
  | .error _ => return ()
  | .ok report => do
    let conn ← connection
    setConn { conn with lastSeq := some report.seq }
    status report at' (Device.missedBetween conn.lastSeq report.seq)

/-- Asks the device for its current state and takes it as the reference for later reports. -/
def snapshot : Watch ω Unit := do
  match ← result (onDevice Device.requestStatus) with
  | .error e => lost e
  | .ok report => do
    -- With edge events still queued the levels are ahead of the reports that will carry them.
    let conn ← connection
    setConn
      { conn with
        snapshotSeq := if report.seq ≠ 0 ∧ report.moreEvents = false then some report.seq else none }
    Prog.update fun c => { c with asked := c.asked ++ [⟨report, c.loop, c.world⟩] }
    let now ← instant
    -- A snapshot never stops the watcher.
    let _ ← (status report now 0).catching Stop.toFatal

/-! ### Connecting -/

/-- Notes a failed attempt to use the device. A cause is reported when it happens twice in a row. -/
def failed (error : Error) : Watch ω Unit := do
  setLoop fun l => if error.text ≠ l.failure then { l with failure := error.text, failures := 0 } else l
  setLoop fun l => { l with failures := l.failures + 1 }
  if (← loop).failures = 2 then emit (.connectFailed error)

/-- What `connect` does once the device has the pin configuration it keeps. -/
def connected (entry : DeviceEntry) (info : DeviceInfo) (device : Device) (found : PinConfig)
    (driven : List U8) (awaitingConfig : Bool) : Watch ω Unit := do
  setConn { device, clock := .empty, lastSeq := none, snapshotSeq := none, awaitingConfig }
  setLoop WatchLoop.resetFailures
  let reconnected := (← loop).everConnected
  setLoop fun l => { l with everConnected := true }
  setConfig found
  emit (.connected entry.serial entry.path info found reconnected)
  -- Losing the connection always sends the outputs back to their initial level.
  let outputs := maskToGpios found.outputsMask
  (if reconnected ∧ outputs ≠ [] then emit (.outputsReset outputs .reconnect)
    else Prog.only (driven ≠ []) (emit (.outputsReset driven .pinConfig)))
  if awaitingConfig then
    let now ← instant
    setLoop fun l => { l with settleAt := some (now + settleTimeout) }
  else snapshot

/-- The `?` operator. -/
def ofExcept : Except Error α → Watch ω α
  | .ok a => return a
  | .error e => throw (.error e)

/-- Opens the device. An error is a failed attempt; a fatal one stops the watcher. -/
def connect (entry : DeviceEntry) : Watch ω Unit := do
  ofExcept (← Prog.call fun c =>
    ((World.openDevice entry c.world).1, { c with world := (World.openDevice entry c.world).2 }))
  let (nanos, pid) ← Prog.call fun c =>
    ((World.seed c.world).1, { c with world := (World.seed c.world).2 })
  let (info, device) ← useDevice (.new entry.serial nanos pid) Device.readInfo
  setLoop fun l => { l with info := some info }
  let (read, device) ← useDevice device Device.getPinConfig
  let found := read.config
  match (← loop).target with
  | none => connected entry info device found [] false
  | some target =>
    if found = target then connected entry info device found [] false
    else
      match ← result (useDevice device (Device.setPinConfig target)) with
      | .error (.pinConfigRejected result gpio isLocal) =>
        throw (.fatal (.pinConfigRejected result gpio isLocal))
      | .error e => throw (.error e)
      | .ok (_, device) => connected entry info device target (drivenOutputs found target) true

/-- Looks for the device again after the scan interval. -/
def scanLater : Watch ω Unit := do
  let now ← instant
  setLoop fun l => { l with scanAt := some (now + l.interval) }

/-- Looks for the device and connects to it. Several devices without a serial number are fatal. -/
def tryConnect : Watch ω Unit := do
  match ← Prog.call fun c =>
      ((World.devices c.world).1, { c with world := (World.devices c.world).2 }) with
  | .error .unsupportedPlatform => throw (.fatal .unsupportedPlatform)
  | .error e => do
    failed e
    scanLater
  | .ok entries => do
    let l ← loop
    let fits := entries.filter fun entry => l.serial.all fun serial => decide (entry.serial = serial)
    match fits with
    | [] => do
      setLoop WatchLoop.resetFailures
      scanLater
    | entry :: others =>
      if l.serial = none ∧ others ≠ [] then
        throw (.fatal (.severalDevices (fits.map DeviceEntry.serial)))
      else
        setLoop fun l => { l with serial := some entry.serial }
        match ← result (connect entry) with
        | .ok () => return ()
        | .error e => do
          failed e
          scanLater

/-! ### The thread -/

/-- Runs a request of the application and replies. -/
def serve (request : Request) : Watch ω Unit := do
  let reply ← result (match request with
    | .setTargetPins config => setTarget config
    | .setOutputs levels => do
      match (← loop).conn with
      | none => throw (.error .deviceDisconnected)
      | some _ => onDevice (Device.setOutputs levels))
  Prog.update fun c => { c with replies := c.replies ++ [(request, reply)] }

/-- Whether an alarm is due. -/
def due (at' : Option Instant) (now : Instant) : Bool := at'.any fun at' => decide (at' ≤ now)

/-- How long one read of the device waits. -/
def readTimeout (l : WatchLoop) (now : Instant) : ℕ :=
  let next := ([l.scanAt, l.restoreAt, l.settleAt].filterMap id).min?
  max (match next with
    | none => readPoll
    | some at' => min (at' - now) readPoll) millisecond

/-- The first critical section of `main_loop`: events go to the application as long as there is room. -/
def deliver : Watch ω Unit :=
  Prog.update fun c =>
    let room := outCapacity - c.shared.out.length
    { c with
      loop := { c.loop with pending := c.loop.pending.drop room }
      shared := { c.shared with out := c.shared.out ++ c.loop.pending.take room } }

/-- Takes all requests out of the mailbox. -/
def takeRequests : Watch ω Unit :=
  Prog.update fun c =>
    { c with serving := c.shared.requests, shared := { c.shared with requests := [] } }

/-- An alarm that is due, or else one read of the device. Waiting for a notification or for an alarm
    changes nothing. -/
def attend : Watch ω Unit := do
  let now ← instant
  let l ← loop
  if due l.scanAt now then
    setLoop fun l => { l with scanAt := none }
    tryConnect
  else if due l.restoreAt now then
    setLoop fun l => { l with restoreAt := none }
    restoreTarget
  else if due l.settleAt now then
    setLoop fun l => { l with settleAt := none }
    match l.conn with
    | none => return ()
    | some conn => do
      setConn { conn with awaitingConfig := false }
      snapshot
  else if l.pending ≠ [] ∨ l.conn.isNone then return ()
  else
    match ← result (onDevice (Device.readRaw (some (readTimeout l now)))) with
    | .error e => lost e
    | .ok [] => return ()
    | .ok data => do
      let now ← instant
      received data now

/-- One iteration of `main_loop`, or the next request it is running; the value says whether the loop
    goes on. -/
def iterate : Watch ω Bool := do
  match ← Prog.gets Ctx.serving with
  | request :: rest => do
    Prog.update fun c => { c with serving := rest }
    serve request
    return true
  | [] => do
    deliver
    if (← Prog.gets Ctx.shared).stopping then return false
    else
      takeRequests
      if (← Prog.gets Ctx.serving) ≠ [] then return true
      else
        attend
        return true

end Watch

end Hidpin.Host
