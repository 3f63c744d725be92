import Hidpin.Lib.Bytes
import Hidpin.Lib.Mask
import Mathlib.Data.Fintype.Pi

/-! The wire format as the firmware writes and reads it (`firmware/core/src/protocol.c`): constants,
    the reports and their encoders, and the validation of a pin configuration Set. -/

namespace Hidpin.Firmware

abbrev gpioCount : ℕ := 30
abbrev eventsPerReport : ℕ := 7
abbrev eventQueueSize : ℕ := 32
abbrev reportPayloadLen : ℕ := 63
abbrev outputPayloadLen : ℕ := 8
abbrev sdkBoardLen : ℕ := 40

/-- A GPIO number. -/
abbrev Gpio := Fin gpioCount

def protocolVersion : U8 := 1
def periodicIntervalMs : U16 := 1000
def defaultDebounceMs : U8 := 20
def settleUs : U64 := 1000

def reasonLevelChanged : U8 := 0x01
def reasonOutputApplied : U8 := 0x02
def reasonConfigChanged : U8 := 0x04
def reasonPeriodic : U8 := 0x08
def reasonOutputReset : U8 := 0x10
def reasonHostRequest : U8 := 0x80

def flagOverflow : U8 := 0x01
def flagMoreEvents : U8 := 0x02

def modeUnused : U8 := 0
def modeInputNopull : U8 := 1
def modeInputPullup : U8 := 2
def modeInputPulldown : U8 := 3
def modeOutput : U8 := 4

def resultOk : U8 := 0
def resultBadLength : U8 := 1
def resultBadMode : U8 := 2
def resultUnavailableGpio : U8 := 3
def resultUnusedWithParam : U8 := 4
def resultBadOutputLevel : U8 := 5
def resultGpioNone : U8 := 0xFF

/-- A GPIO number as the `uint8_t` it is on the wire. -/
def Gpio.toU8 (n : Gpio) : U8 := BitVec.ofNat 8 n.val

theorem Gpio.lt_word (n : Gpio) : n.val < 32 := Nat.lt_of_lt_of_le n.isLt (by decide)

theorem toU8_injective : Function.Injective Gpio.toU8 := by decide

/-- Bit `n` of a word: `((word >> n) & 1u) != 0u`. -/
def rawBit (word : U32) (n : Gpio) : Bool := decide ((word >>> n.val) &&& 1#32 ≠ 0#32)

structure StatusEvent where
  gpio : U8
  level : Bool
  ageUs : U32
  deriving DecidableEq

/-- The contents of a status report; `events` are the first `event_count` entries. -/
structure Status where
  seq : U16
  reason : U8
  flags : U8
  monitored : U32
  outputs : U32
  levels : U32
  timestampUs : U64
  events : List StatusEvent
  deriving DecidableEq

structure DeviceInfo where
  fwMajor : U8
  fwMinor : U8
  fwPatch : U8
  board : U8
  available : U32
  chip : U8
  chipRevision : U8
  quirks : U8
  /-- The bytes of the C string before its terminator; `none` is the null pointer. -/
  sdkBoard : Option (List U8)
  deriving DecidableEq

@[ext] structure PinConfig where
  mode : Gpio → U8
  param : Gpio → U8

instance : DecidableEq PinConfig := fun a b =>
  decidable_of_iff (a.mode = b.mode ∧ a.param = b.param) PinConfig.ext_iff.symm

structure PinConfigReport where
  result : U8
  resultGpio : U8
  requestId : U8
  config : PinConfig

/-- Whether a byte of flags or reasons has a bit. -/
def hasFlag (byte flag : U8) : Bool := decide (byte &&& flag ≠ 0)

def modeIsInput (mode : U8) : Bool := decide (modeInputNopull ≤ mode ∧ mode ≤ modeInputPulldown)

def pinConfigDefault (available : U32) : PinConfig where
  mode n := if rawBit available n then modeInputPullup else modeUnused
  param n := if rawBit available n then defaultDebounceMs else 0

def encodeEvent (ev : StatusEvent) : List U8 :=
  ((ev.gpio &&& 0x1F) ||| (if ev.level then 0x80 else 0)) :: Lib.toBytes 4 ev.ageUs

/-- `hp_status_encode`: the fields in the order of their offsets, unused event slots 0. -/
def encodeStatus (s : Status) : List U8 :=
  let events := s.events.take eventsPerReport
  Lib.toBytes 2 s.seq ++ [s.reason, s.flags, BitVec.ofNat 8 events.length, 0, 0, 0] ++
    Lib.toBytes 4 s.monitored ++ Lib.toBytes 4 s.outputs ++ Lib.toBytes 4 s.levels ++
    Lib.toBytes 8 s.timestampUs ++ events.flatMap encodeEvent ++
    List.replicate (5 * (eventsPerReport - events.length)) 0

/-- `hp_device_info_encode`; a name of `sdkBoardLen` characters has no terminator. -/
def encodeDeviceInfo (info : DeviceInfo) : List U8 :=
  let name := (((info.sdkBoard.getD []).take sdkBoardLen).takeWhile (· ≠ 0))
  [protocolVersion, info.fwMajor, info.fwMinor, info.fwPatch, info.board, BitVec.ofNat 8 gpioCount] ++
    Lib.toBytes 2 periodicIntervalMs ++ Lib.toBytes 4 info.available ++
    [BitVec.ofNat 8 eventsPerReport, BitVec.ofNat 8 eventQueueSize, info.chip, info.chipRevision,
      info.quirks] ++
    name ++ List.replicate (reportPayloadLen - 17 - name.length) 0

def encodePinConfig (report : PinConfigReport) : List U8 :=
  [report.result, report.resultGpio, report.requestId] ++
    (List.finRange gpioCount).flatMap fun n => [report.config.mode n, report.config.param n]

/-- The `mode` and `param` bytes of a pin configuration payload. -/
def payloadMode (payload : List U8) (n : Gpio) : U8 := payload.getD (3 + 2 * n.val) 0
def payloadParam (payload : List U8) (n : Gpio) : U8 := payload.getD (3 + 2 * n.val + 1) 0

/-- The local variable of the decoder before the loop. -/
def blankConfig : PinConfig := ⟨fun _ => 0, fun _ => 0⟩

/-- What `hp_pin_config_decode_set` returns and writes; `config` is written only on `resultOk`. -/
structure DecodedSet where
  result : U8
  requestId : U8
  resultGpio : U8
  config : Option PinConfig

/-- The loop over the entries: the first failing check, or `resultOk` with everything parsed. -/
def decodeEntries (payload : List U8) (available : U32) :
    List Gpio → PinConfig → U8 × U8 × Option PinConfig
  | [], parsed => (resultOk, resultGpioNone, some parsed)
  | n :: ns, parsed =>
    let mode := payloadMode payload n
    let param := payloadParam payload n
    if mode > modeOutput then (resultBadMode, n.toU8, none)
    else if rawBit available n = false ∧ mode ≠ modeUnused then
      (resultUnavailableGpio, n.toU8, none)
    else if mode = modeUnused ∧ param ≠ 0 then (resultUnusedWithParam, n.toU8, none)
    else if mode = modeOutput ∧ param > 1 then (resultBadOutputLevel, n.toU8, none)
    else decodeEntries payload available ns
      { mode := Function.update parsed.mode n mode, param := Function.update parsed.param n param }

/-- `hp_pin_config_decode_set`. -/
def pinConfigDecodeSet (payload : List U8) (available : U32) : DecodedSet :=
  let requestId := if 3 ≤ payload.length then payload.getD 2 0 else 0
  if payload.length ≠ reportPayloadLen then
    { result := resultBadLength, requestId, resultGpio := resultGpioNone, config := none }
  else
    let (result, resultGpio, config) :=
      decodeEntries payload available (List.finRange gpioCount) blankConfig
    { result, requestId, resultGpio, config }

/-- `hp_output_decode`: the mask and the value of an output command of the right length. -/
def outputDecode (payload : List U8) : Option (U32 × U32) :=
  if payload.length ≠ outputPayloadLen then none
  else some (Lib.ofBytes 32 (payload.take 4), Lib.ofBytes 32 ((payload.drop 4).take 4))

theorem hasFlag_or (a b f : U8) : hasFlag (a ||| b) f = (hasFlag a f || hasFlag b f) := by
  have h : (a ||| b) &&& f = 0#8 ↔ a &&& f = 0#8 ∧ b &&& f = 0#8 := by
    rw [BitVec.and_or_distrib_right, BitVec.or_eq_zero_iff]
  by_cases ha : a &&& f = 0#8 <;> by_cases hb : b &&& f = 0#8 <;> simp [hasFlag, h, ha, hb]

@[simp] theorem hasFlag_zero (f : U8) : hasFlag 0#8 f = false := by simp [hasFlag]

theorem hasFlag_ite {c : Prop} [Decidable c] (a b f : U8) :
    hasFlag (if c then a else b) f = if c then hasFlag a f else hasFlag b f := by
  split <;> rfl

/-! ### The validation -/

/-- What PROTOCOL.md 6.3 asks of one entry. -/
def EntryValid (available : U32) (n : Gpio) (mode param : U8) : Prop :=
  mode ≤ modeOutput ∧ (rawBit available n = false → mode = modeUnused) ∧
    (mode = modeUnused → param = 0) ∧ (mode = modeOutput → param ≤ 1)

/-- A configuration that passes the validation on a board. -/
def PinConfig.Valid (available : U32) (c : PinConfig) : Prop :=
  ∀ n, EntryValid available n (c.mode n) (c.param n)

theorem pinConfigDefault_valid (available : U32) : (pinConfigDefault available).Valid available := by
  intro n
  cases h : rawBit available n
  · simp [EntryValid, pinConfigDefault, h, modeUnused, modeOutput]
  · simp [EntryValid, pinConfigDefault, h]
    decide

/-- The configuration a payload spells out. -/
def payloadConfig (payload : List U8) : PinConfig := ⟨payloadMode payload, payloadParam payload⟩

/-- `parsed` with the entries `ns` stored. -/
def storeEntries (payload : List U8) (ns : List Gpio) (parsed : PinConfig) : PinConfig where
  mode m := if m ∈ ns then payloadMode payload m else parsed.mode m
  param m := if m ∈ ns then payloadParam payload m else parsed.param m

theorem storeEntries_cons (payload : List U8) (n : Gpio) (ns : List Gpio) (parsed : PinConfig) :
    storeEntries payload ns
        ⟨Function.update parsed.mode n (payloadMode payload n),
          Function.update parsed.param n (payloadParam payload n)⟩ =
      storeEntries payload (n :: ns) parsed := by
  simp only [storeEntries, List.mem_cons, Function.update_apply, PinConfig.mk.injEq]
  constructor <;> funext m <;> by_cases hmn : m = n <;> by_cases hm : m ∈ ns <;> simp [hmn, hm]

theorem decodeEntries_of_valid (payload : List U8) (available : U32) : ∀ (ns : List Gpio)
    (parsed : PinConfig),
    (∀ n ∈ ns, EntryValid available n (payloadMode payload n) (payloadParam payload n)) →
    decodeEntries payload available ns parsed =
      (resultOk, resultGpioNone, some (storeEntries payload ns parsed))
  | [], parsed, _ => by simp [decodeEntries, storeEntries]
  | n :: ns, parsed, h => by
    obtain ⟨⟨hmode, havail, hunused, hout⟩, hrest⟩ := List.forall_mem_cons.mp h
    have h1 : ¬ payloadMode payload n > modeOutput := by simpa using hmode
    have h2 : ¬ (rawBit available n = false ∧ payloadMode payload n ≠ modeUnused) :=
      fun hc => hc.2 (havail hc.1)
    have h3 : ¬ (payloadMode payload n = modeUnused ∧ payloadParam payload n ≠ 0) :=
      fun hc => hc.2 (hunused hc.1)
    have h4 : ¬ (payloadMode payload n = modeOutput ∧ payloadParam payload n > 1) :=
      fun hc => absurd hc.2 (by simpa using hout hc.1)
    simp only [decodeEntries, h1, h2, h3, h4, if_false]
    rw [decodeEntries_of_valid payload available ns _ hrest, storeEntries_cons]

theorem decodeEntries_of_invalid (payload : List U8) (available : U32) : ∀ (ns : List Gpio)
    (parsed : PinConfig),
    ¬ (∀ n ∈ ns, EntryValid available n (payloadMode payload n) (payloadParam payload n)) →
    (decodeEntries payload available ns parsed).1 ≠ resultOk ∧
      (decodeEntries payload available ns parsed).2.2 = none
  | [], _, h => absurd (by simp) h
  | n :: ns, parsed, h => by
    simp only [decodeEntries]
    split_ifs with h1 h2 h3 h4
    · simp [resultBadMode, resultOk]
    · simp [resultUnavailableGpio, resultOk]
    · simp [resultUnusedWithParam, resultOk]
    · simp [resultBadOutputLevel, resultOk]
    · refine decodeEntries_of_invalid payload available ns _ fun hrest => h ?_
      refine List.forall_mem_cons.mpr ⟨⟨by simpa using h1, fun ha => ?_, fun hm => ?_, fun hm => ?_⟩, hrest⟩
      · by_contra hne
        exact h2 ⟨ha, hne⟩
      · by_contra hne
        exact h3 ⟨hm, hne⟩
      · by_contra hne
        exact h4 ⟨hm, by simpa using hne⟩

theorem storeEntries_all (payload : List U8) (parsed : PinConfig) :
    storeEntries payload (List.finRange gpioCount) parsed = payloadConfig payload := by
  simp [storeEntries, payloadConfig]

theorem decodeSet_of_valid {payload : List U8} {available : U32}
    (hlen : payload.length = reportPayloadLen) (hv : (payloadConfig payload).Valid available) :
    (pinConfigDecodeSet payload available).result = resultOk ∧
      (pinConfigDecodeSet payload available).config = some (payloadConfig payload) := by
  have h := decodeEntries_of_valid payload available (List.finRange gpioCount) blankConfig
    fun n _ => hv n
  simp [pinConfigDecodeSet, hlen, h, storeEntries_all]

theorem decodeSet_of_invalid {payload : List U8} {available : U32}
    (h : ¬ (payload.length = reportPayloadLen ∧ (payloadConfig payload).Valid available)) :
    (pinConfigDecodeSet payload available).result ≠ resultOk ∧
      (pinConfigDecodeSet payload available).config = none := by
  by_cases hlen : payload.length = reportPayloadLen
  · have h := decodeEntries_of_invalid payload available (List.finRange gpioCount) blankConfig
      fun hall => h ⟨hlen, fun n => hall n (List.mem_finRange n)⟩
    simpa [pinConfigDecodeSet, hlen] using h
  · simp [pinConfigDecodeSet, hlen, resultBadLength, resultOk]

/-- A Set is accepted exactly when it has the right length and spells out a valid configuration. -/
theorem decodeSet_config {payload : List U8} {available : U32} {c : PinConfig} :
    (pinConfigDecodeSet payload available).config = some c ↔
      (payload.length = reportPayloadLen ∧ (payloadConfig payload).Valid available) ∧
        c = payloadConfig payload := by
  by_cases h : payload.length = reportPayloadLen ∧ (payloadConfig payload).Valid available
  · simp [(decodeSet_of_valid h.1 h.2).2, h, eq_comm]
  · simp only [(decodeSet_of_invalid h).2, h, false_and, reduceCtorEq]

theorem decodeSet_result {payload : List U8} {available : U32} :
    (pinConfigDecodeSet payload available).result = resultOk ↔
      payload.length = reportPayloadLen ∧ (payloadConfig payload).Valid available := by
  by_cases h : payload.length = reportPayloadLen ∧ (payloadConfig payload).Valid available
  · simp [(decodeSet_of_valid h.1 h.2).1, h]
  · simp only [(decodeSet_of_invalid h).1, h]

end Hidpin.Firmware
