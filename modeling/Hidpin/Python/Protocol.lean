import Hidpin.Host.Protocol

/-! The codecs of the Python library (`python/src/hidpin/protocol.py`). An `int` is a natural number
    here; a negative one fails in `struct.pack_into` and in a `bytearray` like one that is too large.
    `Result`, `Reason` and `StatusFlags` are the integers they stand for. -/

namespace Hidpin.Python
open Host (Gpio PinMode gpioCount eventsPerReport reportPayloadLen outputPayloadLen statusEventsOffset
  eventLen sdkBoardLen sdkBoardOffset)

/-- The exceptions of the codecs. -/
inductive Exn where
  | valueError (text : String)
  | structError
  deriving DecidableEq, Repr

/-- One field of `struct.pack_into("<…")`, `k` bytes wide. -/
def pack (k value : ℕ) : Except Exn (List U8) :=
  if value < 2 ^ (8 * k) then .ok (Lib.toBytes k (BitVec.ofNat (8 * k) value)) else .error .structError

/-- One field of `struct.unpack_from("<…")`. -/
def unpack (k : ℕ) (payload : List U8) (pos : ℕ) : ℕ := (Lib.ofBytes (8 * k) (Lib.slice payload pos k)).toNat

/-- `payload[i]`. -/
def item (payload : List U8) (i : ℕ) : ℕ := (payload.getD i 0).toNat

/-- A byte assigned to an element of a `bytearray`. -/
def byte (value : ℕ) : Except Exn U8 :=
  if value < 256 then .ok (BitVec.ofNat 8 value) else .error (.valueError "byte must be in range(0, 256)")

/-! ### Status report -/

structure EdgeEvent where
  gpio : ℕ
  level : Bool
  ageUs : ℕ
  deriving DecidableEq, Repr

structure StatusReport where
  seq : ℕ
  reason : ℕ
  flags : ℕ
  monitored : ℕ
  outputs : ℕ
  levels : ℕ
  timestampUs : ℕ
  events : List EdgeEvent
  deriving DecidableEq, Repr

/-- The loop body of `decode_status`. -/
def decodeEvent (payload : List U8) (i : ℕ) : EdgeEvent :=
  let pin := unpack 1 payload (statusEventsOffset + eventLen * i)
  let ageUs := unpack 4 payload (statusEventsOffset + eventLen * i + 1)
  ⟨pin &&& 0x1F, decide (pin &&& 0x80 ≠ 0), ageUs⟩

/-- `decode_status`. -/
def decodeStatus (payload : List U8) : Except Exn StatusReport :=
  if payload.length ≠ reportPayloadLen then
    .error (.valueError ("status payload must be 63 bytes, got " ++ toString payload.length))
  else
    let count := unpack 1 payload 4
    if count > eventsPerReport then
      .error (.valueError ("event_count " ++ toString count ++ " exceeds 7"))
    else
      .ok
        { seq := unpack 2 payload 0
          reason := unpack 1 payload 2
          flags := unpack 1 payload 3
          monitored := unpack 4 payload 8
          outputs := unpack 4 payload 12
          levels := unpack 4 payload 16
          timestampUs := unpack 8 payload 20
          events := (List.range count).map (decodeEvent payload) }

/-- The bytes the loop of `encode_status` packs for an event. -/
def encodeEvent (e : EdgeEvent) : Except Exn (List U8) := do
  let pin := (e.gpio &&& 0x1F) ||| (if e.level then 0x80 else 0)
  return (← pack 1 pin) ++ (← pack 4 e.ageUs)

/-- The loop of `encode_status` from the event with number `i`. -/
def putEvents : ℕ → List EdgeEvent → List U8 → Except Exn (List U8)
  | _, [], payload => .ok payload
  | i, e :: es, payload => do
    putEvents (i + 1) es (Lib.put payload (statusEventsOffset + eventLen * i) (← encodeEvent e))

/-- `encode_status`. -/
def encodeStatus (r : StatusReport) : Except Exn (List U8) :=
  if r.events.length > eventsPerReport then .error (.valueError "at most 7 events fit in one report")
  else do
    let payload := List.replicate reportPayloadLen 0
    let head := (← pack 2 r.seq) ++ (← pack 1 r.reason) ++ (← pack 1 r.flags) ++ (← pack 1 r.events.length)
    let payload := Lib.put payload 0 head
    let masks := (← pack 4 r.monitored) ++ (← pack 4 r.outputs) ++ (← pack 4 r.levels) ++
      (← pack 8 r.timestampUs)
    let payload := Lib.put payload 8 masks
    putEvents 0 r.events payload

/-! ### Device information -/

structure DeviceInfo where
  protocolVersion : ℕ
  firmware : ℕ × ℕ × ℕ
  board : ℕ
  gpioCount : ℕ
  periodicIntervalMs : ℕ
  available : ℕ
  eventsPerReport : ℕ
  eventQueueSize : ℕ
  chip : ℕ
  chipRevision : ℕ
  quirks : ℕ
  sdkBoard : List Char
  deriving DecidableEq, Repr

/-- `name.decode("ascii", errors="replace")`. -/
def decodeAscii (name : List U8) : List Char :=
  name.map fun b => if b.toNat < 128 then Char.ofNat b.toNat else Char.ofNat 0xFFFD

/-- `text.encode("ascii")`; its `UnicodeEncodeError` is a `ValueError`. -/
def encodeAscii (text : List Char) : Except Exn (List U8) :=
  if text.all fun c => decide (c.toNat < 128) then .ok (text.map fun c => BitVec.ofNat 8 c.toNat)
  else .error (.valueError "'ascii' codec can't encode characters: ordinal not in range(128)")

/-- `decode_device_info`; the name ends where `split(b"\0", 1)` cuts it. -/
def decodeDeviceInfo (payload : List U8) : Except Exn DeviceInfo :=
  if payload.length ≠ reportPayloadLen then
    .error (.valueError ("device info payload must be 63 bytes, got " ++ toString payload.length))
  else
    let name := (Lib.slice payload sdkBoardOffset sdkBoardLen).takeWhile (· ≠ 0)
    .ok
      { protocolVersion := unpack 1 payload 0
        firmware := (unpack 1 payload 1, unpack 1 payload 2, unpack 1 payload 3)
        board := unpack 1 payload 4
        gpioCount := unpack 1 payload 5
        periodicIntervalMs := unpack 2 payload 6
        available := unpack 4 payload 8
        eventsPerReport := unpack 1 payload 12
        eventQueueSize := unpack 1 payload 13
        chip := unpack 1 payload 14
        chipRevision := unpack 1 payload 15
        quirks := unpack 1 payload 16
        sdkBoard := decodeAscii name }

/-- `encode_device_info`. -/
def encodeDeviceInfo (info : DeviceInfo) : Except Exn (List U8) := do
  let payload := List.replicate reportPayloadLen 0
  let head := (← pack 1 info.protocolVersion) ++ (← pack 1 info.firmware.1) ++
    (← pack 1 info.firmware.2.1) ++ (← pack 1 info.firmware.2.2) ++
    (← pack 1 info.board) ++ (← pack 1 info.gpioCount)
  let payload := Lib.put payload 0 head
  let payload := Lib.put payload 6 ((← pack 2 info.periodicIntervalMs) ++ (← pack 4 info.available))
  let payload := Lib.put payload 12 ((← pack 1 info.eventsPerReport) ++ (← pack 1 info.eventQueueSize))
  let payload :=
    Lib.put payload 14 ((← pack 1 info.chip) ++ (← pack 1 info.chipRevision) ++ (← pack 1 info.quirks))
  let name ← encodeAscii info.sdkBoard
  if name.length > sdkBoardLen then
    .error (.valueError ("sdk_board must be at most 40 characters, got " ++ toString name.length))
  else .ok (Lib.put payload sdkBoardOffset name)

/-! ### Pin configuration -/

structure PinSetting where
  mode : PinMode
  param : ℕ
  deriving DecidableEq, Repr

abbrev PinConfig := Gpio → PinSetting

structure PinConfigReport where
  result : ℕ
  resultGpio : ℕ
  requestId : ℕ
  config : PinConfig

namespace Result

def ok : ℕ := 0
def badLength : ℕ := 1
def badMode : ℕ := 2
def unavailableGpio : ℕ := 3
def unusedWithParam : ℕ := 4
def badOutputLevel : ℕ := 5

end Result

def resultGpioNone : ℕ := 0xFF

/-- The loop of `decode_pin_config`. -/
def decodeSettings (payload : List U8) : List Gpio → PinConfig → Except Exn PinConfig
  | [], pins => .ok pins
  | n :: ns, pins =>
    let mode := item payload (3 + 2 * n.val)
    let param := item payload (4 + 2 * n.val)
    if mode > PinMode.output.toU8.toNat then
      .error (.valueError ("mode " ++ toString mode ++ " of GPIO" ++ toString n.val ++ " is undefined"))
    else
      match PinMode.ofU8 (BitVec.ofNat 8 mode) with
      | none => .error (.valueError (toString mode ++ " is not a valid PinMode"))
      | some pinMode => decodeSettings payload ns (Function.update pins n ⟨pinMode, param⟩)

/-- `decode_pin_config`. -/
def decodePinConfig (payload : List U8) : Except Exn PinConfigReport :=
  if payload.length ≠ reportPayloadLen then
    .error (.valueError ("pin config payload must be 63 bytes, got " ++ toString payload.length))
  else do
    let config ← decodeSettings payload (List.finRange gpioCount) fun _ => ⟨.unused, 0⟩
    return { result := item payload 0, resultGpio := item payload 1, requestId := item payload 2, config }

/-- The loop of `encode_pin_config`. -/
def putSettings (config : PinConfig) : List Gpio → List U8 → Except Exn (List U8)
  | [], payload => .ok payload
  | n :: ns, payload => do
    let payload := Lib.put payload (3 + 2 * n.val) [(config n).mode.toU8]
    let payload := Lib.put payload (4 + 2 * n.val) [← byte (config n).param]
    putSettings config ns payload

/-- `encode_pin_config`. -/
def encodePinConfig (r : PinConfigReport) : Except Exn (List U8) := do
  let payload := List.replicate reportPayloadLen 0
  let payload := Lib.put payload 0 [← byte r.result]
  let payload := Lib.put payload 1 [← byte r.resultGpio]
  let payload := Lib.put payload 2 [← byte r.requestId]
  putSettings r.config (List.finRange gpioCount) payload

/-- The loop of `validate_pin_config_payload`. -/
def validateEntries (payload : List U8) (available requestId : ℕ) : List Gpio → ℕ × ℕ × ℕ
  | [] => (Result.ok, resultGpioNone, requestId)
  | n :: ns =>
    let mode := item payload (3 + 2 * n.val)
    let param := item payload (4 + 2 * n.val)
    if mode > PinMode.output.toU8.toNat then (Result.badMode, n.val, requestId)
    else if (available >>> n.val) &&& 1 = 0 ∧ mode ≠ PinMode.unused.toU8.toNat then
      (Result.unavailableGpio, n.val, requestId)
    else if mode = PinMode.unused.toU8.toNat ∧ param ≠ 0 then (Result.unusedWithParam, n.val, requestId)
    else if mode = PinMode.output.toU8.toNat ∧ param > 1 then (Result.badOutputLevel, n.val, requestId)
    else validateEntries payload available requestId ns

/-- `validate_pin_config_payload`. -/
def validatePinConfigPayload (payload : List U8) (available : ℕ) : ℕ × ℕ × ℕ :=
  let requestId := if payload.length ≥ 3 then item payload 2 else 0
  if payload.length ≠ reportPayloadLen then (Result.badLength, resultGpioNone, requestId)
  else validateEntries payload available requestId (List.finRange gpioCount)

end Hidpin.Python
