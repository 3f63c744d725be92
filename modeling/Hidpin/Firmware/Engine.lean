import Hidpin.Firmware.Debounce
import Hidpin.Firmware.EventQueue

/-! The device behaviour (`firmware/core/src/engine.c`). An engine is a value and every function
    returns the next one. Two fields are not in `hp_engine_t`: `hw` stands for the callbacks and lists
    the calls made through them, and `history` lists the calls of `push_event`; no function reads
    either. What `read_inputs` returns is an argument of the functions that call it. -/

namespace Hidpin.Firmware

/-- A call through `hp_hw_t` that acts on the pins. -/
inductive HwCall where
  | setUnused (gpio : Gpio)
  | setInput (gpio : Gpio) (mode : U8)
  | setOutput (gpio : Gpio) (level : Bool)
  | writeOutputs (mask value : U32)
  deriving DecidableEq

/-- An edge event when it is confirmed, with the number of events queued just before. -/
structure Confirmed where
  event : EdgeEvent
  queued : ℕ
  deriving DecidableEq

/-- The state of the engine. -/
structure Engine where
  hw : List HwCall
  info : DeviceInfo
  config : PinConfig
  result : U8
  resultGpio : U8
  requestId : U8
  debounce : Gpio → Debounce
  queue : EventQueue
  monitored : U32
  outputs : U32
  reportedLevels : U32
  outputLevels : U32
  settling : U32
  settleActive : Bool
  configChanged : Bool
  settleDeadlineUs : U64
  activity : U32
  pendingReasons : U8
  nextSeq : U16
  lastSeq : U16
  hasSent : Bool
  lastSentUs : U64
  staged : Bool
  stagedEvents : U8
  stagedReasons : U8
  stagedOverflow : Bool
  stagedReportedLevels : U32
  history : List Confirmed

/-- The bit of a pin in a mask. -/
def gpioBit (n : Gpio) : U32 := Lib.bit 32 n

/-- A mask with the bit of a pin set or cleared. -/
def withBit (mask : U32) (n : Gpio) (set : Bool) : U32 := Lib.putBit mask n set

/-- The test `(mask & gpio_bit(n)) != 0u`. -/
def hasBit (mask : U32) (n : Gpio) : Bool := decide (mask &&& gpioBit n ≠ 0#32)

/-- The pins that a configuration monitors. -/
def inputMask (config : PinConfig) : U32 := Lib.collect 32 fun n : Gpio => modeIsInput (config.mode n)

/-- The pins that a configuration drives. -/
def outputMask (config : PinConfig) : U32 :=
  Lib.collect 32 fun n : Gpio => decide (config.mode n = modeOutput)

/-- The levels that the outputs of a configuration begin with. -/
def initialOutputLevels (config : PinConfig) : U32 :=
  Lib.collect 32 fun n : Gpio => decide (config.mode n = modeOutput) && decide (config.param n ≠ 0)

/-- The age of an event in a report, as far as 32 bits reach. -/
def eventAge (nowUs startUs : U64) : U32 :=
  if startUs ≥ nowUs then 0
  else
    let age := nowUs - startUs
    if age > 0xFFFFFFFF then 0xFFFFFFFF else age.setWidth 32

def periodicIntervalUs : U64 := periodicIntervalMs.setWidth 64 * 1000

namespace Engine

/-- The debounced levels of the monitored pins. -/
def confirmedLevels (e : Engine) : U32 :=
  Lib.collect 32 fun n : Gpio => hasBit e.monitored n && (e.debounce n).confirmed

/-- A monitored input that has been read since it was set up. -/
def isTracking (e : Engine) (n : Gpio) : Bool :=
  hasBit e.monitored n && !hasBit e.settling n && modeIsInput (e.config.mode n)

/-- Queues an event. -/
def pushEvent (e : Engine) (n : Gpio) (level : Bool) (startUs : U64) : Engine :=
  { e with
    activity := e.activity + 1
    queue := e.queue.push ⟨n, level, startUs⟩
    history := e.history ++ [⟨⟨n, level, startUs⟩, e.queue.count.toNat⟩] }

/-- Waits for the pins to settle after a change of the configuration. -/
def startSettle (e : Engine) (nowUs : U64) : Engine :=
  { e with settleActive := true, settleDeadlineUs := nowUs + settleUs }

/-- The body of the loop in `finish_settle`: reads a settling pin for the first time. -/
def readPin (e : Engine) (inputs : U32) (n : Gpio) : Engine :=
  if hasBit e.settling n then
    { e with
      debounce := Function.update e.debounce n (Debounce.reset (rawBit inputs n) (e.config.param n))
      reportedLevels := withBit e.reportedLevels n (rawBit inputs n) }
  else e

/-- `finish_settle`; `inputs` is what `read_inputs` returns. -/
def finishSettle (e : Engine) (inputs : U32) : Engine :=
  let e := (List.finRange gpioCount).foldl (fun e n => e.readPin inputs n) e
  let e :=
    { e with
      monitored := inputMask e.config
      outputs := outputMask e.config
      reportedLevels := e.reportedLevels &&& inputMask e.config
      settling := 0
      settleActive := false }
  if e.configChanged then
    { e with pendingReasons := e.pendingReasons ||| reasonConfigChanged, configChanged := false }
  else e

/-- An engine as `memset` leaves it, with the default configuration of the board. -/
def blank (info : DeviceInfo) : Engine where
  hw := []
  info := info
  config := pinConfigDefault info.available
  result := resultOk
  resultGpio := resultGpioNone
  requestId := 0
  debounce _ := Debounce.zero
  queue := EventQueue.init
  monitored := 0
  outputs := 0
  reportedLevels := 0
  outputLevels := 0
  settling := 0
  settleActive := false
  configChanged := false
  settleDeadlineUs := 0
  activity := 0
  pendingReasons := 0
  nextSeq := 0
  lastSeq := 0
  hasSent := false
  lastSentUs := 0
  staged := false
  stagedEvents := 0
  stagedReasons := 0
  stagedOverflow := false
  stagedReportedLevels := 0
  history := []

/-- The body of the loop in `hp_engine_init`. -/
def initPin (e : Engine) (n : Gpio) : Engine :=
  if modeIsInput (e.config.mode n) then
    { e with
      hw := e.hw ++ [.setInput n (e.config.mode n)]
      settling := e.settling ||| gpioBit n }
  else e

/-- `hp_engine_init`. -/
def init (info : DeviceInfo) (nowUs : U64) : Engine :=
  let e := (List.finRange gpioCount).foldl initPin (blank info)
  { e.startSettle nowUs with lastSentUs := nowUs }

/-- `hp_engine_on_edge` after its guard: an edge of a tracked pin. -/
def edgeAt (e : Engine) (n : Gpio) (raw : Bool) (nowUs : U64) : Engine :=
  let (d, start) := (e.debounce n).edge raw nowUs
  let e := { e with debounce := Function.update e.debounce n d }
  match start with
  | some startUs => e.pushEvent n raw startUs
  | none => e

/-- `hp_engine_on_edge`. -/
def onEdge (e : Engine) (gpio : U8) (raw : Bool) (nowUs : U64) : Engine :=
  if h : gpio.toNat < gpioCount then
    if e.isTracking ⟨gpio.toNat, h⟩ then e.edgeAt ⟨gpio.toNat, h⟩ raw nowUs else e
  else e

/-- The body of the loop in `hp_engine_resync`. -/
def resyncPin (e : Engine) (raw : U32) (nowUs : U64) (n : Gpio) : Engine :=
  if e.isTracking n && decide (rawBit raw n ≠ (e.debounce n).raw) then
    e.onEdge n.toU8 (rawBit raw n) nowUs
  else e

/-- `hp_engine_resync`. -/
def resync (e : Engine) (raw : U32) (nowUs : U64) : Engine :=
  (List.finRange gpioCount).foldl (fun e n => e.resyncPin raw nowUs n) e

/-- The body of the loop in `hp_engine_task`. -/
def pollPin (e : Engine) (nowUs : U64) (n : Gpio) : Engine :=
  if e.isTracking n then
    let (d, start) := (e.debounce n).poll nowUs
    let e := { e with debounce := Function.update e.debounce n d }
    match start with
    | some startUs => e.pushEvent n d.confirmed startUs
    | none => e
  else e

/-- The loop of `hp_engine_task` over the pins. -/
def pollPins (e : Engine) (nowUs : U64) : Engine :=
  (List.finRange gpioCount).foldl (fun e n => e.pollPin nowUs n) e

/-- Whether a task call at this time finishes a settle. -/
def settles (e : Engine) (nowUs : U64) : Bool := e.settleActive && decide (nowUs ≥ e.settleDeadlineUs)

/-- Whether a task call at this time finds the periodic report due. -/
def periodicDue (e : Engine) (nowUs : U64) : Bool :=
  decide (nowUs - e.lastSentUs ≥ periodicIntervalUs)

/-- `hp_engine_task`. -/
def task (e : Engine) (nowUs : U64) (inputs : U32) : Engine :=
  let e := if e.settles nowUs then e.finishSettle inputs else e
  let e := e.pollPins nowUs
  if e.periodicDue nowUs then { e with pendingReasons := e.pendingReasons ||| reasonPeriodic } else e

/-- The events the next report takes from the queue. -/
def takenEvents (e : Engine) : List EdgeEvent :=
  let n := if e.queue.count < BitVec.ofNat 8 eventsPerReport then e.queue.count
    else BitVec.ofNat 8 eventsPerReport
  (List.range n.toNat).map e.queue.peek

/-- An event as a report assembled at `nowUs` carries it. -/
def eventOf (nowUs : U64) (ev : EdgeEvent) : StatusEvent :=
  ⟨ev.gpio.toU8, ev.level, eventAge nowUs ev.startUs⟩

/-- `hp_engine_prepare_report`; the report is what `out` receives the encoding of. -/
def prepareReport (e : Engine) (nowUs : U64) : Engine × Option Status :=
  let queued := e.queue.count
  let overflow := e.queue.overflowed
  let e := { e with staged := false }
  if e.pendingReasons = 0 ∧ queued = 0 ∧ overflow = false then (e, none)
  else
    let taken := e.takenEvents
    let drained := decide (queued.toNat = taken.length)
    let reflected :=
      if drained then e.confirmedLevels
      else taken.foldl (fun r ev => withBit r ev.gpio ev.level) e.reportedLevels
    let status : Status :=
      { seq := e.nextSeq
        reason := e.pendingReasons ||| (if 0 < taken.length then reasonLevelChanged else 0)
        flags := if !drained then flagMoreEvents else if overflow then flagOverflow else 0
        monitored := e.monitored
        outputs := e.outputs
        levels := (reflected &&& e.monitored) ||| (e.outputLevels &&& e.outputs)
        timestampUs := nowUs
        events := taken.map (eventOf nowUs) }
    let e :=
      { e with
        staged := true
        stagedEvents := BitVec.ofNat 8 taken.length
        stagedReasons := status.reason
        stagedOverflow := drained && overflow
        stagedReportedLevels := reflected &&& e.monitored }
    (e, some status)

/-- `hp_engine_commit_report`. -/
def commitReport (e : Engine) (nowUs : U64) : Engine :=
  if !e.staged then e
  else
    let queue := e.queue.drop e.stagedEvents
    { e with
      queue := if e.stagedOverflow then { queue with overflowed := false } else queue
      reportedLevels := e.stagedReportedLevels
      pendingReasons := e.pendingReasons &&& ~~~e.stagedReasons
      lastSeq := e.nextSeq
      nextSeq := e.nextSeq + 1
      hasSent := true
      lastSentUs := nowUs
      staged := false }

/-- `hp_engine_get_status`. -/
def getStatus (e : Engine) (nowUs : U64) : Status where
  seq := if e.hasSent then e.lastSeq else 0
  reason := reasonHostRequest
  flags := if e.queue.count > 0 then flagMoreEvents else 0
  monitored := e.monitored
  outputs := e.outputs
  levels := e.confirmedLevels ||| (e.outputLevels &&& e.outputs)
  timestampUs := nowUs
  events := []

/-- `hp_engine_get_device_info`. -/
def getDeviceInfo (e : Engine) : List U8 := encodeDeviceInfo e.info

/-- `hp_engine_get_pin_config`. -/
def getPinConfig (e : Engine) : List U8 :=
  encodePinConfig ⟨e.result, e.resultGpio, e.requestId, e.config⟩

/-- The body of the loop in `hp_engine_set_pin_config`, with its flag `changed`. -/
def applyPin (next : PinConfig) (nowUs : U64) (s : Engine × Bool) (n : Gpio) : Engine × Bool :=
  let e := s.1
  let oldMode := e.config.mode n
  let newMode := next.mode n
  let newParam := next.param n
  if oldMode = newMode ∧ e.config.param n = newParam then s
  else if modeIsInput newMode then
    let e :=
      if oldMode = newMode then
        { e with debounce := Function.update e.debounce n ((e.debounce n).setTime newParam nowUs) }
      else { e with hw := e.hw ++ [.setInput n newMode], settling := e.settling ||| gpioBit n }
    ({ e with outputLevels := withBit e.outputLevels n false }, true)
  else if newMode = modeOutput then
    ({ e with
        settling := e.settling &&& ~~~gpioBit n
        hw := e.hw ++ [.setOutput n (decide (newParam ≠ 0))]
        outputLevels := withBit e.outputLevels n (decide (newParam ≠ 0)) }, true)
  else
    ({ e with
        settling := e.settling &&& ~~~gpioBit n
        hw := e.hw ++ [.setUnused n]
        outputLevels := withBit e.outputLevels n false }, true)

/-- The loop of `hp_engine_set_pin_config` over the entries. -/
def applyPins (e : Engine) (next : PinConfig) (nowUs : U64) : Engine × Bool :=
  (List.finRange gpioCount).foldl (applyPin next nowUs) (e, false)

/-- `hp_engine_set_pin_config` after an accepted Set. -/
def applyConfig (e : Engine) (next : PinConfig) (nowUs : U64) : Engine :=
  let s := e.applyPins next nowUs
  if s.2 then { s.1 with config := next, configChanged := true }.startSettle nowUs else s.1

/-- The result of the latest Set, which `hp_engine_get_pin_config` reports. -/
def recordResult (e : Engine) (decoded : DecodedSet) : Engine :=
  { e with
    result := decoded.result
    requestId := decoded.requestId
    resultGpio := decoded.resultGpio }

/-- `hp_engine_set_pin_config`. -/
def setPinConfig (e : Engine) (payload : List U8) (nowUs : U64) : Engine :=
  let decoded := pinConfigDecodeSet payload e.info.available
  match decoded.config with
  | none => e.recordResult decoded
  | some next => (e.recordResult decoded).applyConfig next nowUs

/-- `hp_engine_output`; the flag is false when the report was ignored. -/
def output (e : Engine) (payload : List U8) : Engine × Bool :=
  match outputDecode payload with
  | none => (e, false)
  | some (mask, value) =>
    let target := mask &&& outputMask e.config
    let e :=
      { e with
        activity := e.activity + 1
        outputLevels := (e.outputLevels &&& ~~~target) ||| (value &&& target)
        hw := if target ≠ 0#32 then e.hw ++ [.writeOutputs target (value &&& target)] else e.hw
        pendingReasons := e.pendingReasons ||| reasonOutputApplied }
    (e, true)

/-- `hp_engine_usb_reset`. -/
def usbReset (e : Engine) : Engine :=
  let outputs := outputMask e.config
  if outputs = 0#32 then e
  else
    let levels := initialOutputLevels e.config
    { e with
      outputLevels := (e.outputLevels &&& ~~~outputs) ||| levels
      hw := e.hw ++ [.writeOutputs outputs levels]
      pendingReasons := e.pendingReasons ||| reasonOutputReset }

end Engine

/-! ### Bits of the masks

`hasBit` is the form every statement about a mask is brought to. -/

theorem hasBit_eq (mask : U32) (n : Gpio) : hasBit mask n = mask.getLsbD n := by
  rw [Bool.eq_iff_iff, hasBit, decide_eq_true_iff]
  exact Lib.and_bit_ne_zero mask n.lt_word

@[simp] theorem rawBit_eq (word : U32) (n : Gpio) : rawBit word n = hasBit word n := by
  rw [hasBit_eq, Bool.eq_iff_iff, rawBit, decide_eq_true_iff]
  exact Lib.shiftRight_and_one_ne_zero word n.lt_word

@[simp] theorem hasBit_zero (n : Gpio) : hasBit 0#32 n = false := by simp [hasBit]

@[simp] theorem hasBit_or (a b : U32) (n : Gpio) : hasBit (a ||| b) n = (hasBit a n || hasBit b n) := by
  simp only [hasBit_eq, BitVec.getLsbD_or]

@[simp] theorem hasBit_and (a b : U32) (n : Gpio) : hasBit (a &&& b) n = (hasBit a n && hasBit b n) := by
  simp only [hasBit_eq, BitVec.getLsbD_and]

@[simp] theorem hasBit_not (a : U32) (n : Gpio) : hasBit (~~~a) n = !hasBit a n := by
  simp only [hasBit_eq, BitVec.getLsbD_not, n.lt_word, decide_true, Bool.true_and]

@[simp] theorem hasBit_gpioBit (n m : Gpio) : hasBit (gpioBit n) m = decide (m = n) := by
  rw [hasBit_eq, gpioBit, Lib.getLsbD_bit m.lt_word]
  simp [Fin.ext_iff]

@[simp] theorem hasBit_withBit (mask : U32) (n m : Gpio) (b : Bool) :
    hasBit (withBit mask n b) m = if m = n then b else hasBit mask m := by
  rw [hasBit_eq, withBit, Lib.getLsbD_putBit mask b m.lt_word, ← hasBit_eq]
  simp [Fin.ext_iff]

theorem getLsbD_withBit_of_le (mask : U32) (n : Gpio) (b : Bool) {i : ℕ} (hi : gpioCount ≤ i) :
    (withBit mask n b).getLsbD i = mask.getLsbD i := by
  by_cases hw : i < 32
  · rw [withBit, Lib.getLsbD_putBit mask b hw, if_neg (by have := n.isLt; omega)]
  · rw [BitVec.getLsbD_of_ge _ _ (by omega), BitVec.getLsbD_of_ge _ _ (by omega)]

theorem hasBit_collect (p : Gpio → Bool) (n : Gpio) : hasBit (Lib.collect 32 p) n = p n := by
  rw [hasBit_eq]
  exact Lib.getLsbD_collect p n (by decide)

@[simp] theorem hasBit_inputMask (c : PinConfig) (n : Gpio) :
    hasBit (inputMask c) n = modeIsInput (c.mode n) := hasBit_collect _ n

@[simp] theorem hasBit_outputMask (c : PinConfig) (n : Gpio) :
    hasBit (outputMask c) n = decide (c.mode n = modeOutput) := hasBit_collect _ n

@[simp] theorem hasBit_initialOutputLevels (c : PinConfig) (n : Gpio) :
    hasBit (initialOutputLevels c) n = (decide (c.mode n = modeOutput) && decide (c.param n ≠ 0)) :=
  hasBit_collect _ n

@[simp] theorem Engine.hasBit_confirmedLevels (e : Engine) (n : Gpio) :
    hasBit e.confirmedLevels n = (hasBit e.monitored n && (e.debounce n).confirmed) := hasBit_collect _ n

theorem Engine.isTracking_iff (e : Engine) (n : Gpio) :
    e.isTracking n = true ↔ hasBit e.monitored n = true ∧ hasBit e.settling n = false ∧
      modeIsInput (e.config.mode n) = true := by
  simp [Engine.isTracking, and_assoc]

theorem modeIsInput_modeOutput : modeIsInput modeOutput = false := by decide

end Hidpin.Firmware
