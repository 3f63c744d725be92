import Hidpin.Host.Watcher
import Hidpin.Lib.Traced

/-! The watch loop with a log of the entries into `restore_target`. The methods on the way there are those of
    the loop again; all else they do is done by the loop's own statements, so that the loop does the same
    with the log and without it. -/

namespace Hidpin.Host
open Lib

/-- An entry into `restore_target` that reached the device: the time it began, and what was emitted in it. -/
structure Restore where
  began : Instant
  events : List Event

/-- A method of the watch loop, with the log. -/
abbrev Trace (ω α : Type) := Prog (Ctx ω × List Restore) Stop α

namespace Trace
open Prog (quietly)
variable {ω : Type} [World ω]

/-- `restore_target` and its entry in the log; without a target or a connection it returns at once. -/
def restoreTarget : Trace ω Unit := fun (c, log) =>
  let r := Watch.restoreTarget.exec c
  (r.1, r.2,
    if c.loop.target.isSome && c.loop.conn.isSome then
      log ++ [⟨(World.instant c.world).1, (r.2.emitted.drop c.emitted.length).map Emitted.event⟩]
    else log)

/-- `Watch.configChanged` with the log. -/
def configChanged : Trace ω Unit := do
  match ← quietly (Watch.result (Watch.onDevice Device.getPinConfig)) with
  | .error e => quietly (Watch.lost e)
  | .ok read => do
    let config := read.config
    let changed := decide (config ≠ (← quietly Watch.loop).config)
    quietly (Watch.setConfig config)
    let l ← quietly Watch.loop
    match l.target with
    | none => if changed then quietly (Watch.emit (.pinConfigChanged config))
    | some target =>
      if config = target then return ()
      match l.lastRestore with
      | none => restoreTarget
      | some last => do
        let since := (← quietly Watch.instant) - last
        if since < restoreInterval then
          let now ← quietly Watch.instant
          quietly (Watch.setLoop fun l => { l with restoreAt := some (now + (restoreInterval - since)) })
        else restoreTarget

/-- `Watch.status` with the log. -/
def status (report : StatusReport) (at' : Instant) (missed : ℕ) : Trace ω Unit := do
  let on := (← quietly Watch.loop).onOff report
  let conn ← quietly Watch.connection
  let hostRequest := contains report.reason Reason.hostRequest
  let stale := !hostRequest && conn.isStale report.seq
  let configChangedBit := contains report.reason Reason.configChanged
  quietly (Watch.setConn
    { conn with
      clock := conn.clock.add at' report.timestampUs
      snapshotSeq := if hostRequest || stale then conn.snapshotSeq else none
      awaitingConfig := conn.awaitingConfig && !(configChangedBit && !stale) })
  quietly (Prog.only (configChangedBit && !stale) (Watch.setLoop fun l => { l with settleAt := none }))
  quietly (Watch.emit (.statusReceived report missed on))
  let outputs := maskToGpios report.outputs
  quietly (Prog.only (contains report.reason Reason.outputReset && !outputs.isEmpty)
    (Watch.emit (.outputsReset outputs .suspend)))
  Prog.only configChangedBit configChanged
  match (← quietly Watch.loop).conn with
  | none => return ()
  | some conn =>
    if stale || conn.awaitingConfig || (hostRequest && report.moreEvents) then return ()
    quietly (Watch.absorb report)

/-- `Watch.received` with the log. -/
def received (data : List U8) (at' : Instant) : Trace ω Unit := do
  if data.length < reportLen ∨ byteAt data 0 ≠ reportIdStatus then return ()
  match decodeStatus ((data.take reportLen).tail) with
  | .error _ => return ()
  | .ok report => do
    let conn ← quietly Watch.connection
    quietly (Watch.setConn { conn with lastSeq := some report.seq })
    status report at' (Device.missedBetween conn.lastSeq report.seq)

/-- `Watch.snapshot` with the log. -/
def snapshot : Trace ω Unit := do
  match ← quietly (Watch.result (Watch.onDevice Device.requestStatus)) with
  | .error e => quietly (Watch.lost e)
  | .ok report => do
    let conn ← quietly Watch.connection
    quietly (Watch.setConn
      { conn with
        snapshotSeq := if report.seq ≠ 0 ∧ report.moreEvents = false then some report.seq else none })
    quietly (Prog.update fun c => { c with asked := c.asked ++ [⟨report, c.loop, c.world⟩] })
    let now ← quietly Watch.instant
    let _ ← (status report now 0).catching Stop.toFatal

/-- `Watch.connected` with the log. -/
def connected (entry : DeviceEntry) (info : DeviceInfo) (device : Device) (found : PinConfig)
    (driven : List U8) (awaitingConfig : Bool) : Trace ω Unit := do
  quietly (Watch.setConn { device, clock := .empty, lastSeq := none, snapshotSeq := none, awaitingConfig })
  quietly (Watch.setLoop WatchLoop.resetFailures)
  let reconnected := (← quietly Watch.loop).everConnected
  quietly (Watch.setLoop fun l => { l with everConnected := true })
  quietly (Watch.setConfig found)
  quietly (Watch.emit (.connected entry.serial entry.path info found reconnected))
  let outputs := maskToGpios found.outputsMask
  quietly (if reconnected ∧ outputs ≠ [] then Watch.emit (.outputsReset outputs .reconnect)
    else Prog.only (driven ≠ []) (Watch.emit (.outputsReset driven .pinConfig)))
  if awaitingConfig then
    let now ← quietly Watch.instant
    quietly (Watch.setLoop fun l => { l with settleAt := some (now + settleTimeout) })
  else snapshot

/-- `Watch.connect` with the log. -/
def connect (entry : DeviceEntry) : Trace ω Unit := do
  quietly (Watch.ofExcept (← quietly (Prog.call fun c =>
    ((World.openDevice entry c.world).1, { c with world := (World.openDevice entry c.world).2 }))))
  let (nanos, pid) ← quietly (Prog.call fun c =>
    ((World.seed c.world).1, { c with world := (World.seed c.world).2 }))
  let (info, device) ← quietly (Watch.useDevice (.new entry.serial nanos pid) Device.readInfo)
  quietly (Watch.setLoop fun l => { l with info := some info })
  let (read, device) ← quietly (Watch.useDevice device Device.getPinConfig)
  let found := read.config
  match (← quietly Watch.loop).target with
  | none => connected entry info device found [] false
  | some target =>
    if found = target then connected entry info device found [] false
    else
      match ← quietly (Watch.result (Watch.useDevice device (Device.setPinConfig target))) with
      | .error (.pinConfigRejected result gpio isLocal) =>
        throw (.fatal (.pinConfigRejected result gpio isLocal))
      | .error e => throw (.error e)
      | .ok (_, device) => connected entry info device target (drivenOutputs found target) true

/-- `Watch.tryConnect` with the log. -/
def tryConnect : Trace ω Unit := do
  match ← quietly (Prog.call fun c =>
      ((World.devices c.world).1, { c with world := (World.devices c.world).2 })) with
  | .error .unsupportedPlatform => throw (.fatal .unsupportedPlatform)
  | .error e => do
    quietly (Watch.failed e)
    quietly Watch.scanLater
  | .ok entries => do
    let l ← quietly Watch.loop
    let fits := entries.filter fun entry => l.serial.all fun serial => decide (entry.serial = serial)
    match fits with
    | [] => do
      quietly (Watch.setLoop WatchLoop.resetFailures)
      quietly Watch.scanLater
    | entry :: others =>
      if l.serial = none ∧ others ≠ [] then
        throw (.fatal (.severalDevices (fits.map DeviceEntry.serial)))
      else
        quietly (Watch.setLoop fun l => { l with serial := some entry.serial })
        match ← (connect entry).catching Stop.toError with
        | .ok () => return ()
        | .error e => do
          quietly (Watch.failed e)
          quietly Watch.scanLater

/-- `Watch.attend` with the log. -/
def attend : Trace ω Unit := do
  let now ← quietly Watch.instant
  let l ← quietly Watch.loop
  if Watch.due l.scanAt now then
    quietly (Watch.setLoop fun l => { l with scanAt := none })
    tryConnect
  else if Watch.due l.restoreAt now then
    quietly (Watch.setLoop fun l => { l with restoreAt := none })
    restoreTarget
  else if Watch.due l.settleAt now then
    quietly (Watch.setLoop fun l => { l with settleAt := none })
    match l.conn with
    | none => return ()
    | some conn => do
      quietly (Watch.setConn { conn with awaitingConfig := false })
      snapshot
  else if l.pending ≠ [] ∨ l.conn.isNone then return ()
  else
    match ← quietly (Watch.result (Watch.onDevice (Device.readRaw (some (Watch.readTimeout l now))))) with
    | .error e => quietly (Watch.lost e)
    | .ok [] => return ()
    | .ok data => do
      let now ← quietly Watch.instant
      received data now

/-- `Watch.iterate` with the log. -/
def iterate : Trace ω Bool := do
  match ← quietly (Prog.gets Ctx.serving) with
  | request :: rest => do
    quietly (Prog.update fun c => { c with serving := rest })
    quietly (Watch.serve request)
    return true
  | [] => do
    quietly Watch.deliver
    if (← quietly (Prog.gets Ctx.shared)).stopping then return false
    else
      quietly Watch.takeRequests
      if (← quietly (Prog.gets Ctx.serving)) ≠ [] then return true
      else
        attend
        return true

/-! ### The log changes nothing -/

open Prog (Traces)

theorem traces_restoreTarget : Traces (restoreTarget : Trace ω Unit) Watch.restoreTarget :=
  fun _ _ => ⟨rfl, rfl⟩

theorem traces_configChanged : Traces (configChanged : Trace ω Unit) Watch.configChanged := by
  refine Traces.bind (Traces.quietly _) fun r => ?_
  cases r with
  | error e => exact Traces.quietly _
  | ok read =>
    refine Traces.bind (Traces.quietly _) fun _ => Traces.bind (Traces.quietly _) fun _ =>
      Traces.bind (Traces.quietly _) fun l => ?_
    cases l.target with
    | none => exact Traces.ite (Traces.quietly _) (Traces.pure _)
    | some target =>
      refine Traces.ite (Traces.pure _) ?_
      cases l.lastRestore with
      | none => exact traces_restoreTarget
      | some last =>
        refine Traces.bind (Traces.quietly _) fun now => Traces.ite ?_ traces_restoreTarget
        exact Traces.bind (Traces.quietly _) fun _ => Traces.quietly _

theorem traces_status (report : StatusReport) (at' : Instant) (missed : ℕ) :
    Traces (status report at' missed : Trace ω Unit) (Watch.status report at' missed) := by
  refine Traces.bind (Traces.quietly _) fun _ => Traces.bind (Traces.quietly _) fun _ =>
    Traces.bind (Traces.quietly _) fun _ => Traces.bind (Traces.quietly _) fun _ =>
    Traces.bind (Traces.quietly _) fun _ => Traces.bind (Traces.quietly _) fun _ =>
    Traces.bind (Traces.only traces_configChanged) fun _ => Traces.bind (Traces.quietly _) fun l => ?_
  cases l.conn with
  | none => exact Traces.pure _
  | some conn => exact Traces.ite (Traces.pure _) (Traces.quietly _)

theorem traces_received (data : List U8) (at' : Instant) :
    Traces (received data at' : Trace ω Unit) (Watch.received data at') := by
  refine Traces.ite (Traces.pure _) ?_
  cases decodeStatus (data.take reportLen).tail with
  | error e => exact Traces.pure _
  | ok report =>
    exact Traces.bind (Traces.quietly _) fun _ => Traces.bind (Traces.quietly _) fun _ => traces_status _ _ _

theorem traces_snapshot : Traces (snapshot : Trace ω Unit) Watch.snapshot := by
  refine Traces.bind (Traces.quietly _) fun r => ?_
  cases r with
  | error e => exact Traces.quietly _
  | ok report =>
    refine Traces.bind (Traces.quietly _) fun _ => Traces.bind (Traces.quietly _) fun _ =>
      Traces.bind (Traces.quietly _) fun _ => Traces.bind (Traces.quietly _) fun _ => ?_
    exact Traces.bind (Traces.catching _ (traces_status _ _ _)) fun _ => Traces.pure _

theorem traces_connected (entry : DeviceEntry) (info : DeviceInfo) (device : Device) (found : PinConfig)
    (driven : List U8) (awaitingConfig : Bool) :
    Traces (connected entry info device found driven awaitingConfig : Trace ω Unit)
      (Watch.connected entry info device found driven awaitingConfig) := by
  refine Traces.bind (Traces.quietly _) fun _ => Traces.bind (Traces.quietly _) fun _ =>
    Traces.bind (Traces.quietly _) fun _ => Traces.bind (Traces.quietly _) fun _ =>
    Traces.bind (Traces.quietly _) fun _ => Traces.bind (Traces.quietly _) fun _ =>
    Traces.bind (Traces.quietly _) fun _ => Traces.ite ?_ traces_snapshot
  exact Traces.bind (Traces.quietly _) fun _ => Traces.quietly _

theorem traces_connect (entry : DeviceEntry) :
    Traces (connect entry : Trace ω Unit) (Watch.connect entry) := by
  refine Traces.bind (Traces.quietly _) fun _ => Traces.bind (Traces.quietly _) fun _ =>
    Traces.bind (Traces.quietly _) fun seed => Traces.bind (Traces.quietly _) fun opened =>
    Traces.bind (Traces.quietly _) fun _ => Traces.bind (Traces.quietly _) fun read =>
    Traces.bind (Traces.quietly _) fun l => ?_
  cases l.target with
  | none => exact traces_connected _ _ _ _ _ _
  | some target =>
    refine Traces.ite (traces_connected _ _ _ _ _ _) (Traces.bind (Traces.quietly _) fun r => ?_)
    rcases r with e | ⟨_, device⟩
    · cases e <;> exact Traces.throw _
    · exact traces_connected _ _ _ _ _ _

theorem traces_tryConnect : Traces (tryConnect : Trace ω Unit) Watch.tryConnect := by
  refine Traces.bind (Traces.quietly _) fun r => ?_
  have hlater : ∀ e, Traces (do quietly (Watch.failed e); quietly Watch.scanLater : Trace ω Unit)
      (do Watch.failed e; Watch.scanLater) :=
        fun e => Traces.bind (Traces.quietly _) fun _ => Traces.quietly _
  rcases r with e | entries
  · cases e <;> first | exact Traces.throw _ | exact hlater _
  · refine Traces.bind (Traces.quietly _) fun l => ?_
    dsimp only
    cases entries.filter fun entry => l.serial.all fun serial => decide (entry.serial = serial) with
    | nil => exact Traces.bind (Traces.quietly _) fun _ => Traces.quietly _
    | cons entry others =>
      refine Traces.ite (Traces.throw _) (Traces.bind (Traces.quietly _) fun _ => ?_)
      refine Traces.bind (Traces.catching _ (traces_connect entry)) fun r => ?_
      cases r with
      | ok _ => exact Traces.pure _
      | error e => exact hlater e

theorem traces_attend : Traces (attend : Trace ω Unit) Watch.attend := by
  refine Traces.bind (Traces.quietly _) fun now => Traces.bind (Traces.quietly _) fun l => ?_
  refine Traces.ite (Traces.bind (Traces.quietly _) fun _ => traces_tryConnect) ?_
  refine Traces.ite (Traces.bind (Traces.quietly _) fun _ => traces_restoreTarget) ?_
  refine Traces.ite (Traces.bind (Traces.quietly _) fun _ => ?_) ?_
  · cases l.conn with
    | none => exact Traces.pure _
    | some conn => exact Traces.bind (Traces.quietly _) fun _ => traces_snapshot
  · refine Traces.ite (Traces.pure _) (Traces.bind (Traces.quietly _) fun r => ?_)
    rcases r with e | (_ | _)
    · exact Traces.quietly _
    · exact Traces.pure _
    · exact Traces.bind (Traces.quietly _) fun _ => traces_received _ _

theorem traces_iterate : Traces (iterate : Trace ω Bool) Watch.iterate := by
  refine Traces.bind (Traces.quietly _) fun serving => ?_
  cases serving with
  | cons request rest =>
    exact Traces.bind (Traces.quietly _) fun _ => Traces.bind (Traces.quietly _) fun _ => Traces.pure _
  | nil =>
    refine Traces.bind (Traces.quietly _) fun _ => Traces.bind (Traces.quietly _) fun shared =>
      Traces.ite (Traces.pure _) ?_
    refine Traces.bind (Traces.quietly _) fun _ => Traces.bind (Traces.quietly _) fun serving =>
      Traces.ite (Traces.pure _) ?_
    exact Traces.bind traces_attend fun _ => Traces.pure _

end Trace

/-- A watcher and the log of its thread. -/
structure Traced (ω : Type) where
  watcher : Watcher ω
  log : List Restore

namespace Traced
variable {ω : Type} [World ω]

/-- A watcher that was just started. -/
def start (o : WatchOptions) (w : ω) : Traced ω := ⟨.start o w, []⟩

/-- A step of the watcher; the log is what its iteration adds. -/
def step (t : Traced ω) (input : Input) : Traced ω where
  watcher := t.watcher.step input
  log := match input with
    | .turn => if t.watcher.alive then (Trace.iterate.exec (t.watcher.ctx, t.log)).2.2 else t.log
    | _ => t.log

end Traced

end Hidpin.Host
