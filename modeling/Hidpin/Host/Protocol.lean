import Hidpin.Host.Error
import Hidpin.Lib.Mask
import Mathlib.Data.Fintype.Pi

/-! The wire format as the host library reads and writes it (`rust/src/protocol.rs`). Payloads exclude
    the report ID byte. -/

namespace Hidpin.Host

abbrev reportPayloadLen : ℕ := 63
abbrev outputPayloadLen : ℕ := 8
abbrev reportLen : ℕ := 1 + reportPayloadLen
abbrev gpioCount : ℕ := 30
abbrev eventsPerReport : ℕ := 7
abbrev sdkBoardLen : ℕ := 40
abbrev statusEventsOffset : ℕ := 28
abbrev eventLen : ℕ := 5
abbrev sdkBoardOffset : ℕ := 17
abbrev pinConfigOffset : ℕ := 3

abbrev Gpio := Fin gpioCount

def reportIdStatus : U8 := 0x01
def reportIdDeviceInfo : U8 := 0x02
def reportIdPinConfig : U8 := 0x03
def reportIdOutput : U8 := 0x04
def saturatedAgeUs : U32 := 0xFFFFFFFF
def defaultDebounceMs : U8 := 20

/-- The mask of every GPIO number. -/
def allGpios : U32 := 0x3FFFFFFF

def Gpio.toU8 (n : Gpio) : U8 := BitVec.ofNat 8 n.val

/-- `p[pos]`, for indices below the length the callers checked. -/
def byteAt (p : List U8) (pos : ℕ) : U8 := p.getD pos 0

def u16At (p : List U8) (pos : ℕ) : U16 := Lib.ofBytes 16 ((p.drop pos).take 2)
def u32At (p : List U8) (pos : ℕ) : U32 := Lib.ofBytes 32 ((p.drop pos).take 4)
def u64At (p : List U8) (pos : ℕ) : U64 := Lib.ofBytes 64 ((p.drop pos).take 8)

/-! ### Flags -/

/-- `contains` of the flag types: every bit of `other` is set, and there is one. -/
def contains (byte other : U8) : Bool := decide (other ≠ 0 ∧ byte &&& other = other)

namespace Reason

def levelChanged : U8 := 0x01
def outputApplied : U8 := 0x02
def configChanged : U8 := 0x04
def periodic : U8 := 0x08
def outputReset : U8 := 0x10
def hostRequest : U8 := 0x80

end Reason

namespace StatusFlags

def overflow : U8 := 0x01
def moreEvents : U8 := 0x02

end StatusFlags

/-- `word >> gpio & 1 != 0`. -/
def maskBit (mask : U32) (gpio : U8) : Bool := decide ((mask >>> gpio.toNat) &&& 1#32 ≠ 0#32)

/-- The GPIO numbers whose bit is set, ascending. -/
def maskToGpios (mask : U32) : List U8 :=
  ((List.finRange gpioCount).map Gpio.toU8).filter (maskBit mask)

/-! ### Status report -/

/-- One confirmed change of a pin level. -/
structure EdgeEvent where
  gpio : U8
  level : Bool
  ageUs : U32
  deriving DecidableEq, Repr

namespace EdgeEvent

def saturated (e : EdgeEvent) : Bool := decide (e.ageUs = saturatedAgeUs)

/-- The device time the change began, or `none` when it is saturated. -/
def startUs (e : EdgeEvent) (reportTimestampUs : U64) : Option U64 :=
  if e.saturated then none else some (reportTimestampUs - e.ageUs.setWidth 64)

end EdgeEvent

structure StatusReport where
  seq : U16
  reason : U8
  flags : U8
  monitored : U32
  outputs : U32
  levels : U32
  timestampUs : U64
  events : List EdgeEvent
  deriving DecidableEq, Repr

namespace StatusReport

def overflow (r : StatusReport) : Bool := contains r.flags StatusFlags.overflow
def moreEvents (r : StatusReport) : Bool := contains r.flags StatusFlags.moreEvents
def level (r : StatusReport) (gpio : U8) : Bool := maskBit r.levels gpio
def isMonitored (r : StatusReport) (gpio : U8) : Bool := maskBit r.monitored gpio
def isOutput (r : StatusReport) (gpio : U8) : Bool := maskBit r.outputs gpio

end StatusReport

def decodeEvent (p : List U8) (i : ℕ) : EdgeEvent :=
  let pos := statusEventsOffset + eventLen * i
  { gpio := byteAt p pos &&& 0x1F
    level := decide (byteAt p pos &&& 0x80 ≠ 0)
    ageUs := u32At p (pos + 1) }

/-- Parses the payload of a status report. -/
def decodeStatus (p : List U8) : Except Error StatusReport :=
  if p.length ≠ reportPayloadLen then
    .error (.malformed ("status payload must be 63 bytes, got " ++ toString p.length))
  else
    let count := (byteAt p 4).toNat
    if count > eventsPerReport then
      .error (.malformed ("event_count " ++ toString count ++ " exceeds 7"))
    else
      .ok
        { seq := u16At p 0
          reason := byteAt p 2
          flags := byteAt p 3
          monitored := u32At p 8
          outputs := u32At p 12
          levels := u32At p 16
          timestampUs := u64At p 20
          events := (List.range count).map (decodeEvent p) }

/-- The bytes the loop of `encode` writes for an event. -/
def encodeEvent (event : EdgeEvent) : List U8 :=
  ((event.gpio &&& 0x1F) ||| (if event.level then 0x80 else 0)) :: Lib.toBytes 4 event.ageUs

/-- Builds the payload of a status report; it fails with more than 7 events. -/
def StatusReport.encode (r : StatusReport) : Except Error (List U8) :=
  if r.events.length > eventsPerReport then
    .error (.invalidArgument "at most 7 events fit in one report")
  else
    let p := List.replicate reportPayloadLen 0
    let p := Lib.put p 0 (Lib.toBytes 2 r.seq)
    let p := Lib.put p 2 [r.reason]
    let p := Lib.put p 3 [r.flags]
    let p := Lib.put p 4 [BitVec.ofNat 8 r.events.length]
    let p := Lib.put p 8 (Lib.toBytes 4 r.monitored)
    let p := Lib.put p 12 (Lib.toBytes 4 r.outputs)
    let p := Lib.put p 16 (Lib.toBytes 4 r.levels)
    let p := Lib.put p 20 (Lib.toBytes 8 r.timestampUs)
    .ok (Lib.putEach statusEventsOffset eventLen encodeEvent 0 r.events p)

/-! ### Device information -/

structure DeviceInfo where
  protocolVersion : U8
  firmware : U8 × U8 × U8
  board : U8
  gpioCount : U8
  periodicIntervalMs : U16
  available : U32
  eventsPerReport : U8
  eventQueueSize : U8
  chip : U8
  chipRevision : U8
  quirks : U8
  sdkBoard : List Char
  deriving DecidableEq, Repr

/-- ASCII up to the first 0 byte; each byte outside ASCII becomes U+FFFD. -/
def sdkBoardOf (p : List U8) : List Char :=
  (((p.drop sdkBoardOffset).take sdkBoardLen).takeWhile (· ≠ 0)).map fun b =>
    if b.toNat < 128 then Char.ofNat b.toNat else Char.ofNat 0xFFFD

/-- Parses the payload of the device information. -/
def decodeDeviceInfo (p : List U8) : Except Error DeviceInfo :=
  if p.length ≠ reportPayloadLen then
    .error (.malformed ("device info payload must be 63 bytes, got " ++ toString p.length))
  else
    .ok
      { protocolVersion := byteAt p 0
        firmware := (byteAt p 1, byteAt p 2, byteAt p 3)
        board := byteAt p 4
        gpioCount := byteAt p 5
        periodicIntervalMs := u16At p 6
        available := u32At p 8
        eventsPerReport := byteAt p 12
        eventQueueSize := byteAt p 13
        chip := byteAt p 14
        chipRevision := byteAt p 15
        quirks := byteAt p 16
        sdkBoard := sdkBoardOf p }

/-- The UTF-8 bytes of a text. -/
def utf8 (text : List Char) : List U8 := (text.flatMap String.utf8EncodeChar).map UInt8.toBitVec

/-- Builds the payload of the device information. A name longer than `sdkBoardLen` bytes is cut. -/
def DeviceInfo.encode (info : DeviceInfo) : List U8 :=
  let p := List.replicate reportPayloadLen 0
  let p := Lib.put p 0 [info.protocolVersion]
  let p := Lib.put p 1 [info.firmware.1, info.firmware.2.1, info.firmware.2.2]
  let p := Lib.put p 4 [info.board]
  let p := Lib.put p 5 [info.gpioCount]
  let p := Lib.put p 6 (Lib.toBytes 2 info.periodicIntervalMs)
  let p := Lib.put p 8 (Lib.toBytes 4 info.available)
  let p := Lib.put p 12 [info.eventsPerReport]
  let p := Lib.put p 13 [info.eventQueueSize]
  let p := Lib.put p 14 [info.chip]
  let p := Lib.put p 15 [info.chipRevision]
  let p := Lib.put p 16 [info.quirks]
  Lib.put p sdkBoardOffset ((utf8 info.sdkBoard).take sdkBoardLen)

/-! ### Pin configuration -/

inductive PinMode where
  | unused
  | input
  | pullUp
  | pullDown
  | output
  deriving DecidableEq, Repr

namespace PinMode

def isInput : PinMode → Bool
  | input | pullUp | pullDown => true
  | unused | output => false

def toU8 : PinMode → U8
  | unused => 0
  | input => 1
  | pullUp => 2
  | pullDown => 3
  | output => 4

/-- `PinMode::try_from`. -/
def ofU8 (value : U8) : Option PinMode :=
  if value = 0 then some unused
  else if value = 1 then some input
  else if value = 2 then some pullUp
  else if value = 3 then some pullDown
  else if value = 4 then some output
  else none

theorem ofU8_toU8 (m : PinMode) : ofU8 m.toU8 = some m := by cases m <;> decide

end PinMode

/-- How one GPIO is used: a mode plus its parameter. -/
structure PinSetting where
  mode : PinMode
  param : U8
  deriving DecidableEq, Repr

namespace PinSetting

def unused : PinSetting := ⟨.unused, 0⟩

/-- Monitored with the pull-up: a switch to GND. -/
def pullUp (debounceMs : U8) : PinSetting := ⟨.pullUp, debounceMs⟩

def isMonitored (s : PinSetting) : Bool := s.mode.isInput
def isOutput (s : PinSetting) : Bool := decide (s.mode = .output)

end PinSetting

/-- The pin configuration of every GPIO. -/
abbrev PinConfig := Gpio → PinSetting

namespace PinConfig

def unused : PinConfig := fun _ => .unused

/-- The configuration the device starts with. -/
def defaultFor (available : U32) : PinConfig := fun n =>
  if maskBit available n.toU8 then .pullUp defaultDebounceMs else .unused

/-- `config[gpio]`. Rust stops on a GPIO number from 30 on; the watch loop checks the numbers that do not
    come from a mask or a range below 30 (`Watch.indexed`). -/
def get (c : PinConfig) (gpio : U8) : PinSetting :=
  if h : gpio.toNat < gpioCount then c ⟨gpio.toNat, h⟩ else .unused

/-- A copy with one pin replaced; a GPIO outside 0-29 is an error. -/
def withPin (c : PinConfig) (gpio : U8) (setting : PinSetting) : Except Error PinConfig :=
  if h : gpio.toNat < gpioCount then .ok (Function.update c ⟨gpio.toNat, h⟩ setting)
  else .error (.invalidArgument ("GPIO" ++ toString gpio.toNat ++ " is out of range (0-29)"))

/-- The loop of `with_pins`. -/
def withPins (c : PinConfig) : List (U8 × PinSetting) → Except Error PinConfig
  | [] => .ok c
  | (gpio, setting) :: settings => match c.withPin gpio setting with
    | .ok c => c.withPins settings
    | .error e => .error e

def mask (c : PinConfig) (holds : PinSetting → Bool) : U32 :=
  Lib.collect 32 fun n : Gpio => holds (c n)

def monitoredMask (c : PinConfig) : U32 := c.mask PinSetting.isMonitored
def outputsMask (c : PinConfig) : U32 := c.mask PinSetting.isOutput

end PinConfig

structure PinConfigReport where
  result : ResultCode
  resultGpio : U8
  requestId : U8
  config : PinConfig

/-- The payload of a pin configuration report. -/
def PinConfigReport.encode (r : PinConfigReport) : List U8 :=
  [r.result.code, r.resultGpio, r.requestId] ++
    (List.finRange gpioCount).flatMap fun n => [(r.config n).mode.toU8, (r.config n).param]

/-- The `mode` and `param` bytes of an entry. -/
def modeAt (p : List U8) (n : Gpio) : U8 := byteAt p (pinConfigOffset + 2 * n.val)
def paramAt (p : List U8) (n : Gpio) : U8 := byteAt p (pinConfigOffset + 2 * n.val + 1)

/-- The loop over the entries: an undefined mode ends it. -/
def decodeSettings (p : List U8) : List Gpio → PinConfig → Except Error PinConfig
  | [], config => .ok config
  | n :: ns, config =>
    match PinMode.ofU8 (modeAt p n) with
    | none =>
      .error (.malformed ("mode " ++ toString (modeAt p n).toNat ++ " of GPIO" ++ toString n.val ++
        " is undefined"))
    | some mode => decodeSettings p ns (Function.update config n ⟨mode, paramAt p n⟩)

/-- Parses the payload of a pin configuration report. -/
def decodePinConfig (p : List U8) : Except Error PinConfigReport :=
  if p.length ≠ reportPayloadLen then
    .error (.malformed ("pin config payload must be 63 bytes, got " ++ toString p.length))
  else
    match decodeSettings p (List.finRange gpioCount) .unused with
    | .error e => .error e
    | .ok config =>
      .ok { result := ⟨byteAt p 0⟩, resultGpio := byteAt p 1, requestId := byteAt p 2, config }

/-- Builds the payload the host writes; the result fields are ignored by the device. -/
def encodePinConfigSet (config : PinConfig) (requestId : U8) : Except Error (List U8) :=
  if requestId = 0 then .error (.invalidArgument "request_id must be between 1 and 255")
  else .ok (PinConfigReport.encode ⟨.ok, resultGpioNone, requestId, config⟩)

/-- The loop of the validation: the first failing check. -/
def validateEntries (p : List U8) (available : U32) : List Gpio → ResultCode × U8
  | [] => (.ok, resultGpioNone)
  | n :: ns =>
    let mode := modeAt p n
    let param := paramAt p n
    if mode > PinMode.output.toU8 then (.badMode, n.toU8)
    else if (available >>> n.val) &&& 1#32 = 0#32 ∧ mode ≠ PinMode.unused.toU8 then
      (.unavailableGpio, n.toU8)
    else if mode = PinMode.unused.toU8 ∧ param ≠ 0 then (.unusedWithParam, n.toU8)
    else if mode = PinMode.output.toU8 ∧ param > 1 then (.badOutputLevel, n.toU8)
    else validateEntries p available ns

/-- Repeats the validation the device does on a Set payload: the result, the GPIO it refers to, and the
    request_id the device records. -/
def validatePinConfigPayload (p : List U8) (available : U32) : ResultCode × U8 × U8 :=
  let requestId := p.getD 2 0
  if p.length ≠ reportPayloadLen then (.badLength, resultGpioNone, requestId)
  else
    let (result, gpio) := validateEntries p available (List.finRange gpioCount)
    (result, gpio, requestId)

/-- Validates a pin configuration the way the device would, before anything is sent. -/
def validatePinConfig (config : PinConfig) (available : U32) : ResultCode × U8 :=
  let payload := PinConfigReport.encode ⟨.ok, resultGpioNone, 1, config⟩
  let (result, gpio, _) := validatePinConfigPayload payload available
  (result, gpio)

/-- The payload of an output command. -/
def encodeOutput (mask value : U32) : List U8 := Lib.toBytes 4 mask ++ Lib.toBytes 4 value

/-- Parses the payload of an output command into the mask and the value. -/
def decodeOutput (p : List U8) : Except Error (U32 × U32) :=
  if p.length ≠ outputPayloadLen then
    .error (.malformed ("output payload must be 8 bytes, got " ++ toString p.length))
  else .ok (u32At p 0, u32At p 4)

/-! ### Small facts -/

theorem Gpio.lt_word (n : Gpio) : n.val < 32 := Nat.lt_of_lt_of_le n.isLt (by decide)

theorem toNat_toU8 (n : Gpio) : n.toU8.toNat = n.val := by
  have h := n.lt_word
  rw [Gpio.toU8, BitVec.toNat_ofNat, Nat.mod_eq_of_lt (by omega)]

theorem maskBit_toU8 (mask : U32) (n : Gpio) : maskBit mask n.toU8 = mask.getLsbD n := by
  rw [maskBit, toNat_toU8, Bool.eq_iff_iff, decide_eq_true_iff]
  exact Lib.shiftRight_and_one_ne_zero mask n.lt_word

@[simp] theorem PinConfig.get_toU8 (c : PinConfig) (n : Gpio) : c.get n.toU8 = c n := by
  have h : n.toU8.toNat < gpioCount := by rw [toNat_toU8]; exact n.isLt
  rw [PinConfig.get, dif_pos h]
  exact congrArg c (Fin.ext (toNat_toU8 n))

theorem mem_maskToGpios {mask : U32} {gpio : U8} :
    gpio ∈ maskToGpios mask ↔ gpio.toNat < gpioCount ∧ maskBit mask gpio = true := by
  simp only [maskToGpios, List.mem_filter, List.mem_map, List.mem_finRange, true_and]
  constructor
  · rintro ⟨⟨n, rfl⟩, h⟩
    exact ⟨by rw [toNat_toU8]; exact n.isLt, h⟩
  · rintro ⟨hlt, h⟩
    refine ⟨⟨⟨gpio.toNat, hlt⟩, ?_⟩, h⟩
    exact BitVec.eq_of_toNat_eq (toNat_toU8 _)

theorem mem_outputs {c : PinConfig} {n : Gpio} :
    n.toU8 ∈ maskToGpios c.outputsMask ↔ (c n).isOutput = true := by
  have hbit : maskBit c.outputsMask n.toU8 = (c n).isOutput := by
    rw [maskBit_toU8]
    exact Lib.getLsbD_collect _ n (by decide)
  rw [mem_maskToGpios, hbit, toNat_toU8]
  exact and_iff_right n.isLt

theorem nodup_maskToGpios (mask : U32) : (maskToGpios mask).Nodup := by
  refine ((List.nodup_finRange _).map fun a b h => ?_).filter _
  rw [← BitVec.toNat_inj, toNat_toU8, toNat_toU8] at h
  exact Fin.ext h

end Hidpin.Host
