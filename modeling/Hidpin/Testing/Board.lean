import Hidpin.Host.Device

/-! The simulated board that the library offers to test programs without hardware (`rust/src/testing.rs`):
    its state, the handles that programs hold, and what tests and programs can do to it. The bus, which lists
    boards by their paths and serial numbers, is left out but for the paths it gives out. -/

namespace Hidpin.Testing
open Host

/-- GPIO0-22 and 26-28 of the Raspberry Pi Pico. -/
def picoAvailable : U32 := 0x1C7FFFFF

/-- Reports a handle keeps for the host; later ones are dropped, as hidraw does. -/
def queueLen : ℕ := 64

def gone : OsError := ⟨"the device is gone", false⟩
def handleClosed : OsError := ⟨"the handle is closed", false⟩
def unexpectedOutput : OsError := ⟨"unexpected output report", false⟩
def unexpectedFeature : OsError := ⟨"unexpected feature report", false⟩

/-- What a handle shares with the board. `taken` are the reports that were read, oldest first, and `dropped`
    counts those the handle did not get; the program has no such fields. -/
structure HandleQueue where
  reports : List (List U8)
  closed : Bool
  failed : Bool
  taken : List (List U8)
  dropped : ℕ
  deriving DecidableEq

/-- A new handle. -/
def HandleQueue.new : HandleQueue := ⟨[], false, false, [], 0⟩

/-- Queues a report for a handle, or drops it when the queue is full. -/
def HandleQueue.push (q : HandleQueue) (data : List U8) : HandleQueue :=
  if q.reports.length < queueLen then { q with reports := q.reports ++ [data] }
  else { q with dropped := q.dropped + 1 }

/-- The state of a board. `handles` are the open handles by their number; `queues` also keeps what the board
    no longer refers to. `sent` are the reports since the board was powered, oldest first; the program has no
    such field. -/
structure BoardState where
  path : String
  powered : Bool
  openError : Option OsError
  info : DeviceInfo
  config : PinConfig
  result : ResultCode
  resultGpio : U8
  requestId : U8
  inputs : U32
  levels : U32
  nextSeq : U16
  lastSeq : U16
  clockUs : U64
  overflow : Bool
  handles : List ℕ
  queues : ℕ → HandleQueue
  opened : ℕ
  sent : List StatusReport

/-- `1u32 << gpio`. -/
def gpioBit (n : Gpio) : U32 := 1#32 <<< n.val

/-- The payload of a report the board sends. It has at most one event, so it is encoded. -/
def payload (report : StatusReport) : List U8 :=
  match report.encode with
  | .ok p => p
  | .error _ => []

namespace BoardState

/-- `FakeBoard::new`: not plugged in yet. -/
def new : BoardState where
  path := ""
  powered := false
  openError := none
  info :=
    { protocolVersion := Host.protocolVersion
      firmware := (0, 1, 0)
      board := 1
      gpioCount := 30
      periodicIntervalMs := 1000
      available := picoAvailable
      eventsPerReport := 7
      eventQueueSize := 32
      chip := 0
      chipRevision := 0
      quirks := 0
      sdkBoard := [] }
  config := .defaultFor picoAvailable
  result := .ok
  resultGpio := resultGpioNone
  requestId := 0
  inputs := picoAvailable
  levels := 0
  nextSeq := 0
  lastSeq := 0
  clockUs := 0
  overflow := false
  handles := []
  queues _ := .new
  opened := 0
  sent := []

/-! ### Reports -/

/-- A status report of the board. -/
def status (s : BoardState) (reason : U8) (events : List EdgeEvent) (seq : U16) (flags : U8) :
    StatusReport where
  seq
  reason
  flags
  monitored := s.config.monitoredMask
  outputs := s.config.outputsMask
  levels := s.levels
  timestampUs := s.clockUs
  events

/-- Gives a report to the open handles. -/
def deliver (s : BoardState) (data : List U8) : BoardState :=
  { s with queues := fun h => if h ∈ s.handles then (s.queues h).push data else s.queues h }

/-- Sends a report to every open handle. -/
def send (s : BoardState) (reason : U8) (events : List EdgeEvent) : BoardState :=
  let s := { s with clockUs := s.clockUs + 1000 }
  let flags := if s.overflow then StatusFlags.overflow else 0
  let s := { s with overflow := false }
  let report := s.status reason events s.nextSeq flags
  let s := { s with lastSeq := s.nextSeq, nextSeq := s.nextSeq + 1, sent := s.sent ++ [report] }
  s.deliver (reportIdStatus :: payload report)

/-- The body of the loop in `reset_outputs`. -/
def resetOutput (config : PinConfig) (levels : U32) (gpio : U8) : U32 :=
  levels &&& ~~~(1#32 <<< gpio.toNat) ||| if (config.get gpio).param ≠ 0 then 1#32 <<< gpio.toNat else 0

/-- The flag says whether there are outputs. -/
def resetOutputs (s : BoardState) : BoardState × Bool :=
  let outputs := s.config.outputsMask
  ({ s with levels := (maskToGpios outputs).foldl (resetOutput s.config) s.levels }, decide (outputs ≠ 0))

/-- All open handles fail. -/
def failHandles (s : BoardState) : BoardState :=
  { s with
    handles := []
    queues := fun h => if h ∈ s.handles then { s.queues h with failed := true } else s.queues h }

/-- The body of the loop in `write_config`. -/
def writePin (config next : PinConfig) (inputs levels : U32) (n : Gpio) : U32 :=
  let prev := config n
  let setting := next n
  if prev = setting ∨ (prev.isMonitored ∧ setting.isMonitored ∧ prev.mode = setting.mode) then
    levels -- unchanged, or only the debounce time changed
  else if setting.isMonitored then levels &&& ~~~gpioBit n ||| inputs &&& gpioBit n
  else if setting.isOutput then levels &&& ~~~gpioBit n ||| if setting.param ≠ 0 then gpioBit n else 0
  else levels &&& ~~~gpioBit n

/-- Handles a Set of the pin configuration. -/
def writeConfig (s : BoardState) (p : List U8) : BoardState :=
  let (result, resultGpio, requestId) := Host.validatePinConfigPayload p s.info.available
  let s := { s with result, resultGpio, requestId }
  if result ≠ .ok then s
  else
    match Host.decodePinConfig p with
    | .error _ => s -- never: the payload was validated
    | .ok report =>
      let next := report.config
      if next = s.config then s
      else
        { s with
          levels := (List.finRange gpioCount).foldl (writePin s.config next s.inputs) s.levels
          config := next }.send Reason.configChanged []

/-! ### What a test does -/

/-- Connects the board. One that was unplugged starts afresh. -/
def plug (s : BoardState) (path : String) : BoardState :=
  let s := { s with path }
  if s.powered then s
  else
    let config := .defaultFor s.info.available
    { s with
      powered := true
      config
      result := .ok
      resultGpio := resultGpioNone
      requestId := 0
      levels := s.inputs &&& PinConfig.monitoredMask config
      nextSeq := 0
      lastSeq := 0
      clockUs := 5000000
      overflow := false
      sent := [] }

/-- The board is unplugged. -/
def unplug (s : BoardState) : BoardState :=
  { s.failHandles with powered := false, path := "" }

/-- `open`, with the number of the new handle. -/
def openHandle (s : BoardState) : Except Error ℕ × BoardState :=
  match s.openError with
  | some e => (.error (.openFailed s.path e), s)
  | none =>
    (.ok s.opened,
      { s with
        handles := s.handles ++ [s.opened]
        queues := Function.update s.queues s.opened .new
        opened := s.opened + 1 })

/-- The electrical value of a GPIO. The functions with a GPIO number stop on one from 30 on. -/
def putInput (s : BoardState) (n : Gpio) (high : Bool) : BoardState :=
  { s with inputs := s.inputs &&& ~~~gpioBit n ||| if high then gpioBit n else 0 }

/-- Changes the electrical value of a GPIO; on a monitored pin this sends an edge event, which began the
    debounce time before. -/
def setInput (s : BoardState) (n : Gpio) (high : Bool) : BoardState :=
  let s := s.putInput n high
  if !s.powered ∨ !(s.config n).isMonitored ∨ s.levels &&& gpioBit n = s.inputs &&& gpioBit n then s
  else
    let s := { s with levels := s.levels &&& ~~~gpioBit n ||| s.inputs &&& gpioBit n }
    s.send Reason.levelChanged [⟨n.toU8, high, (s.config n).param.setWidth 32 * 1000⟩]

/-- Changes a monitored pin as if its edge event were dropped from a full event queue. -/
def loseInput (s : BoardState) (n : Gpio) (high : Bool) : BoardState :=
  let s := s.putInput n high
  if (s.config n).isMonitored then
    { s with levels := s.levels &&& ~~~gpioBit n ||| s.inputs &&& gpioBit n, overflow := true }
  else s

/-- A periodic report. -/
def periodic (s : BoardState) : BoardState := s.send Reason.periodic []

/-- A status report that the host never reads; no handle gets it. -/
def skipped (s : BoardState) (i : ℕ) : StatusReport :=
  s.status Reason.periodic [] (s.nextSeq + BitVec.ofNat 16 i) 0

/-- Sends `n` status reports that the host never reads. -/
def skipReports (s : BoardState) (n : U16) : BoardState :=
  { s with
    nextSeq := s.nextSeq + n
    lastSeq := s.nextSeq + n - 1
    queues := fun h => if h ∈ s.handles then { s.queues h with dropped := (s.queues h).dropped + n.toNat }
      else s.queues h
    sent := s.sent ++ (List.range n.toNat).map s.skipped }

/-- The host suspends the board. -/
def suspend (s : BoardState) : BoardState :=
  let (s, outputs) := s.resetOutputs
  if outputs then s.send Reason.outputReset [] else s

/-- A USB reset that makes the host create the device node anew without the board losing power. -/
def reenumerate (s : BoardState) : BoardState := s.failHandles.resetOutputs.1

/-- Writes a pin configuration as another program would. -/
def writePinConfig (s : BoardState) (config : PinConfig) : BoardState :=
  s.writeConfig (PinConfigReport.encode ⟨.ok, resultGpioNone, 1, config⟩)

/-! ### What a program does through a handle -/

/-- Whether a handle can be used. -/
def check (s : BoardState) (h : ℕ) : Except OsError Unit :=
  if (s.queues h).closed then .error handleClosed else if (s.queues h).failed then .error gone else .ok ()

/-- `read` into a buffer of `len` bytes. Without a report it waits for one or until the timeout expires, and
    then gives no bytes. -/
def read (s : BoardState) (h len : ℕ) : Except OsError (List U8) × BoardState :=
  let queue := s.queues h
  if queue.failed then (.error gone, s)
  else
    match queue.reports with
    | [] => (.ok [], s)
    | report :: reports =>
      (.ok (report.take len),
        { s with
          queues := Function.update s.queues h { queue with reports, taken := queue.taken ++ [report] } })

/-- A write through a handle. -/
def write (s : BoardState) (h : ℕ) (report : List U8) : Except OsError Unit × BoardState :=
  match s.check h with
  | .error e => (.error e, s)
  | .ok () =>
    if report.head? ≠ some reportIdOutput then (.error unexpectedOutput, s)
    else
      match Host.decodeOutput report.tail with
      | .error _ => (.ok (), s) -- the firmware ignores it
      | .ok (mask, value) =>
        let mask := mask &&& s.config.outputsMask
        (.ok (), { s with levels := s.levels &&& ~~~mask ||| value &&& mask }.send Reason.outputApplied [])

/-- The payload of a feature report. -/
def feature (s : BoardState) (reportId : U8) : Option (List U8) :=
  if reportId = reportIdDeviceInfo then some s.info.encode
  else if reportId = reportIdPinConfig then
    some (PinConfigReport.encode ⟨s.result, s.resultGpio, s.requestId, s.config⟩)
  else none

/-- The bytes of a buffer of `len` bytes that the call fills. -/
def getFeatureReport (s : BoardState) (h : ℕ) (reportId : U8) (len : ℕ) : Except OsError (List U8) :=
  match s.check h with
  | .error e => .error e
  | .ok () =>
    match s.feature reportId with
    | none => .error unexpectedFeature
    | some payload => .ok (reportId :: payload.take (len - 1))

/-- A feature report through a handle. -/
def sendFeatureReport (s : BoardState) (h : ℕ) (report : List U8) : Except OsError Unit × BoardState :=
  match s.check h with
  | .error e => (.error e, s)
  | .ok () =>
    if report.head? ≠ some reportIdPinConfig then (.error unexpectedFeature, s)
    else (.ok (), s.writeConfig report.tail)

/-- The status report that answers Get_Report(Input). -/
def inputReport (s : BoardState) : StatusReport := s.status Reason.hostRequest [] s.lastSeq 0

/-- An input report on request. -/
def getInputReport (s : BoardState) (h len : ℕ) : Except OsError (List U8) :=
  match s.check h with
  | .error e => .error e
  | .ok () => .ok (reportIdStatus :: (payload s.inputReport).take (len - 1))

/-- `drop` of a handle. -/
def dropHandle (s : BoardState) (h : ℕ) : BoardState :=
  { s with
    queues := Function.update s.queues h { s.queues h with closed := true }
    handles := s.handles.filter (· ≠ h) }

end BoardState

/-! ### Runs -/

/-- What a test does to the board and a program to a handle. -/
inductive Act where
  | plug (path : String)
  | unplug
  | setOpenError (e : Option OsError)
  | setProtocolVersion (version : U8)
  | setInput (n : Gpio) (high : Bool)
  | loseInput (n : Gpio) (high : Bool)
  | periodic
  | skipReports (n : U16)
  | suspend
  | reenumerate
  | writePinConfig (config : PinConfig)
  | openHandle
  | read (h len : ℕ)
  | write (h : ℕ) (report : List U8)
  | getFeatureReport (h : ℕ) (reportId : U8) (len : ℕ)
  | sendFeatureReport (h : ℕ) (report : List U8)
  | getInputReport (h len : ℕ)
  | dropHandle (h : ℕ)

namespace BoardState

/-- One act. The bus opens only boards that are plugged in. -/
def step (s : BoardState) : Act → BoardState
  | .plug path => s.plug path
  | .unplug => s.unplug
  | .setOpenError e => { s with openError := e }
  | .setProtocolVersion version => { s with info := { s.info with protocolVersion := version } }
  | .setInput n high => s.setInput n high
  | .loseInput n high => s.loseInput n high
  | .periodic => s.periodic
  | .skipReports n => s.skipReports n
  | .suspend => s.suspend
  | .reenumerate => s.reenumerate
  | .writePinConfig config => s.writePinConfig config
  | .openHandle => if s.powered then s.openHandle.2 else s
  | .read h len => (s.read h len).2
  | .write h report => (s.write h report).2
  | .getFeatureReport _ _ _ => s
  | .sendFeatureReport h report => (s.sendFeatureReport h report).2
  | .getInputReport _ _ => s
  | .dropHandle h => s.dropHandle h

end BoardState

end Hidpin.Testing
