import Hidpin.Host.Protocol

/-! The codecs of the Go library (`hidpin/protocol.go`). Its `Status` and `EdgeEvent` have the fields and
    the widths of the Rust ones, which stand for them here; a mode is any byte. Errors are their texts. -/

namespace Hidpin.Go
open Host (Gpio gpioCount eventsPerReport reportPayloadLen outputPayloadLen statusEventsOffset
  pinConfigOffset byteAt u16At u32At u64At resultGpioNone sdkBoardLen sdkBoardOffset)

abbrev Status := Host.StatusReport
abbrev EdgeEvent := Host.EdgeEvent

def statusEventLen : ℕ := 5

/-! ### Status report -/

/-- The loop body of `DecodeStatus`. -/
def decodeEvent (p : List U8) (i : ℕ) : EdgeEvent :=
  let pos := statusEventsOffset + statusEventLen * i
  ⟨byteAt p pos &&& 0x1F, decide (byteAt p pos &&& 0x80 ≠ 0), u32At p (pos + 1)⟩

/-- `DecodeStatus`. -/
def decodeStatus (p : List U8) : Except String Status :=
  if p.length ≠ reportPayloadLen then
    .error ("status payload must be 63 bytes, got " ++ toString p.length)
  else
    let count := (byteAt p 4).toNat
    if count > eventsPerReport then .error ("event_count " ++ toString count ++ " exceeds 7")
    else
      .ok
        { seq := u16At p 0
          reason := byteAt p 2
          flags := byteAt p 3
          monitored := u32At p 8
          outputs := u32At p 12
          levels := u32At p 16
          timestampUs := u64At p 20
          events := (List.range count).map (decodeEvent p) }

/-- The bytes the loop of `Encode` writes for an event. -/
def encodeEvent (e : EdgeEvent) : List U8 :=
  let pin := e.gpio &&& 0x1F
  (if e.level then pin ||| 0x80 else pin) :: Lib.toBytes 4 e.ageUs

/-- `Status.Encode`. -/
def encodeStatus (s : Status) : Except String (List U8) :=
  if s.events.length > eventsPerReport then .error "at most 7 events fit in one report"
  else
    let p := List.replicate reportPayloadLen 0
    let p := Lib.put p 0 (Lib.toBytes 2 s.seq)
    let p := Lib.put p 2 [s.reason]
    let p := Lib.put p 3 [s.flags]
    let p := Lib.put p 4 [BitVec.ofNat 8 s.events.length]
    let p := Lib.put p 8 (Lib.toBytes 4 s.monitored)
    let p := Lib.put p 12 (Lib.toBytes 4 s.outputs)
    let p := Lib.put p 16 (Lib.toBytes 4 s.levels)
    let p := Lib.put p 20 (Lib.toBytes 8 s.timestampUs)
    .ok (Lib.putEach statusEventsOffset statusEventLen encodeEvent 0 s.events p)

/-! ### Device information -/

/-- `sdkBoard` is a Go string, which is its bytes. -/
structure DeviceInfo where
  protocolVersion : U8
  firmware : U8 × U8 × U8
  board : U8
  gpioCount : U8
  periodicIntervalMs : U16
  available : U32
  eventsPerReport : U8
  eventQueueSize : U8
  chip : U8
  chipRevision : U8
  quirks : U8
  sdkBoard : List U8
  deriving DecidableEq, Repr

/-- `utf8.RuneError` as `WriteRune` writes it. -/
def runeError : List U8 := [0xEF, 0xBF, 0xBD]

/-- `asciiString`. -/
def asciiString (b : List U8) : List U8 := b.flatMap fun c => if c < 0x80 then [c] else runeError

/-- `DecodeDeviceInfo`. -/
def decodeDeviceInfo (p : List U8) : Except String DeviceInfo :=
  if p.length ≠ reportPayloadLen then
    .error ("device info payload must be 63 bytes, got " ++ toString p.length)
  else
    let name := Lib.slice p sdkBoardOffset sdkBoardLen
    let name := match name.idxOf? 0 with
      | some i => name.take i
      | none => name
    .ok
      { protocolVersion := byteAt p 0
        firmware := (byteAt p 1, byteAt p 2, byteAt p 3)
        board := byteAt p 4
        gpioCount := byteAt p 5
        periodicIntervalMs := u16At p 6
        available := u32At p 8
        eventsPerReport := byteAt p 12
        eventQueueSize := byteAt p 13
        chip := byteAt p 14
        chipRevision := byteAt p 15
        quirks := byteAt p 16
        sdkBoard := asciiString name }

/-- `DeviceInfo.Encode`; `copy` stops at the end of the shorter slice. -/
def DeviceInfo.encode (i : DeviceInfo) : List U8 :=
  let p := List.replicate reportPayloadLen 0
  let p := Lib.put p 0 [i.protocolVersion]
  let p := Lib.put p 1 [i.firmware.1, i.firmware.2.1, i.firmware.2.2]
  let p := Lib.put p 4 [i.board]
  let p := Lib.put p 5 [i.gpioCount]
  let p := Lib.put p 6 (Lib.toBytes 2 i.periodicIntervalMs)
  let p := Lib.put p 8 (Lib.toBytes 4 i.available)
  let p := Lib.put p 12 [i.eventsPerReport]
  let p := Lib.put p 13 [i.eventQueueSize]
  let p := Lib.put p 14 [i.chip]
  let p := Lib.put p 15 [i.chipRevision]
  let p := Lib.put p 16 [i.quirks]
  Lib.put p sdkBoardOffset (i.sdkBoard.take sdkBoardLen)

/-! ### Pin configuration -/

def modeUnused : U8 := 0
def modeOutput : U8 := 4

def resultOk : U8 := 0
def resultBadLength : U8 := 1
def resultBadMode : U8 := 2
def resultUnavailableGpio : U8 := 3
def resultUnusedWithParam : U8 := 4
def resultBadOutputLevel : U8 := 5

structure PinSetting where
  mode : U8
  param : U8
  deriving DecidableEq, Repr

abbrev PinConfig := Gpio → PinSetting

structure PinConfigReport where
  result : U8
  resultGpio : U8
  requestId : U8
  config : PinConfig

def modeAt (p : List U8) (n : Gpio) : U8 := byteAt p (pinConfigOffset + 2 * n.val)
def paramAt (p : List U8) (n : Gpio) : U8 := byteAt p (pinConfigOffset + 2 * n.val + 1)

/-- The loop of `DecodePinConfig`. -/
def decodeSettings (p : List U8) : List Gpio → PinConfig → Except String PinConfig
  | [], config => .ok config
  | n :: ns, config =>
    if modeAt p n > modeOutput then
      .error ("mode " ++ toString (modeAt p n).toNat ++ " of GPIO" ++ toString n.val ++ " is undefined")
    else decodeSettings p ns (Function.update config n ⟨modeAt p n, paramAt p n⟩)

/-- `DecodePinConfig`. -/
def decodePinConfig (p : List U8) : Except String PinConfigReport :=
  if p.length ≠ reportPayloadLen then
    .error ("pin config payload must be 63 bytes, got " ++ toString p.length)
  else do
    let config ← decodeSettings p (List.finRange gpioCount) fun _ => ⟨0, 0⟩
    return { result := byteAt p 0, resultGpio := byteAt p 1, requestId := byteAt p 2, config }

/-- `PinConfigReport.Encode`. -/
def PinConfigReport.encode (r : PinConfigReport) : List U8 :=
  let p := List.replicate reportPayloadLen 0
  let p := Lib.put p 0 [r.result]
  let p := Lib.put p 1 [r.resultGpio]
  let p := Lib.put p 2 [r.requestId]
  Lib.putEach pinConfigOffset 2 (fun n => [(r.config n).mode, (r.config n).param])
    0 (List.finRange gpioCount) p

/-- The loop of `ValidatePinConfigPayload`. -/
def validateEntries (p : List U8) (available : U32) (requestId : U8) : List Gpio → U8 × U8 × U8
  | [] => (resultOk, resultGpioNone, requestId)
  | n :: ns =>
    let mode := modeAt p n
    let param := paramAt p n
    if mode > modeOutput then (resultBadMode, n.toU8, requestId)
    else if (available >>> n.val) &&& 1#32 = 0#32 ∧ mode ≠ modeUnused then
      (resultUnavailableGpio, n.toU8, requestId)
    else if mode = modeUnused ∧ param ≠ 0 then (resultUnusedWithParam, n.toU8, requestId)
    else if mode = modeOutput ∧ param > 1 then (resultBadOutputLevel, n.toU8, requestId)
    else validateEntries p available requestId ns

/-- `ValidatePinConfigPayload`. -/
def validatePinConfigPayload (p : List U8) (available : U32) : U8 × U8 × U8 :=
  let requestId := if 3 ≤ p.length then byteAt p 2 else 0
  if p.length ≠ reportPayloadLen then (resultBadLength, resultGpioNone, requestId)
  else validateEntries p available requestId (List.finRange gpioCount)

end Hidpin.Go
