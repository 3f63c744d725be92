import Hidpin.Codec.Validation
import Hidpin.Go.Strconv

/-! Pin settings in the Go library (`hidpin/protocol.go`): their notation, configurations in which some pins
    are changed, and the payloads of the reports that the library writes. -/

namespace Hidpin.Go
open Firmware (Gpio gpioCount rawBit payloadMode payloadParam)
open Host (resultGpioNone)

def modeInput : U8 := 1
def modePullUp : U8 := 2
def modePullDown : U8 := 3

def defaultDebounceMs : U8 := 20

/-- `QuirkPullDownUnreliable`. -/
def quirkPullDownUnreliable : U8 := 0x01

def PinSetting.unused : PinSetting := ⟨modeUnused, 0⟩
def PinSetting.monitorPullUp (debounceMs : U8) : PinSetting := ⟨modePullUp, debounceMs⟩
def PinSetting.monitorPullDown (debounceMs : U8) : PinSetting := ⟨modePullDown, debounceMs⟩
def PinSetting.monitorNoPull (debounceMs : U8) : PinSetting := ⟨modeInput, debounceMs⟩
def PinSetting.output (initialHigh : Bool) : PinSetting :=
  if initialHigh then ⟨modeOutput, 1⟩ else ⟨modeOutput, 0⟩

/-- `PinSetting.String`. -/
def PinSetting.string (s : PinSetting) : List Char :=
  if s.mode = modeUnused then "off".toList
  else if s.mode = modeOutput then if s.param ≠ 0 then "out:high".toList else "out:low".toList
  else if s.mode = modeInput then "nopull:".toList ++ itoa s.param.toNat
  else if s.mode = modePullUp then "pullup:".toList ++ itoa s.param.toNat
  else if s.mode = modePullDown then "pulldown:".toList ++ itoa s.param.toNat
  else "mode".toList ++ itoa s.mode.toNat ++ ':' :: itoa s.param.toNat

/-- `MaskToGPIOs`. -/
def maskToGpios (mask : U32) : List Gpio := (List.finRange gpioCount).filter (rawBit mask)

namespace PinConfig

/-- `WithPins`. A map has at most one setting for a key, and its keys are GPIO numbers here. -/
def withPins (c : PinConfig) (settings : Gpio → Option PinSetting) : PinConfig :=
  fun n => (settings n).getD (c n)

/-- `PinConfig.mask`. -/
def mask (c : PinConfig) (accept : PinSetting → Bool) : U32 := Lib.collect 32 fun n : Gpio => accept (c n)

def outputsMask (c : PinConfig) : U32 := c.mask fun s => decide (s.mode = modeOutput)

def pullDownGpios (c : PinConfig) : List Gpio := maskToGpios (c.mask fun s => decide (s.mode = modePullDown))

end PinConfig

/-- `DeviceInfo.PullDownUnreliable`. -/
def DeviceInfo.pullDownUnreliable (i : DeviceInfo) : Bool :=
  decide (i.quirks &&& quirkPullDownUnreliable = quirkPullDownUnreliable)

/-- `EncodePinConfigSet`. -/
def encodePinConfigSet (c : PinConfig) (requestId : U8) : Except String (List U8) :=
  if requestId = 0 then .error "request_id must be between 1 and 255"
  else .ok (PinConfigReport.encode ⟨resultOk, resultGpioNone, requestId, c⟩)

/-- `ValidatePinConfig`. -/
def validatePinConfig (c : PinConfig) (available : U32) : U8 × U8 :=
  let (result, gpio, _) := validatePinConfigPayload (PinConfigReport.encode ⟨0, 0, 0, c⟩) available
  (result, gpio)

/-- `EncodeOutput`. -/
def encodeOutput (mask value : U32) : List U8 :=
  let p := List.replicate Host.outputPayloadLen 0
  let p := Lib.put p 0 (Lib.toBytes 4 mask)
  Lib.put p 4 (Lib.toBytes 4 value)

/-! ### Payloads -/

/-- A configuration of the library, as the firmware stores it. -/
def PinConfig.toFirmware (c : PinConfig) : Firmware.PinConfig := ⟨fun n => (c n).mode, fun n => (c n).param⟩

/-- The configuration of the firmware in the words of the library. -/
def ofFirmware (c : Firmware.PinConfig) : PinConfig := fun n => ⟨c.mode n, c.param n⟩

@[simp] theorem toFirmware_ofFirmware (c : Firmware.PinConfig) : (ofFirmware c).toFirmware = c := rfl

@[simp] theorem ofFirmware_toFirmware (c : PinConfig) : ofFirmware c.toFirmware = c := rfl

namespace PinConfigReport

/-- The report as the firmware encodes it. -/
theorem firmware_encode (r : PinConfigReport) :
    r.encode = Firmware.encodePinConfig ⟨r.result, r.resultGpio, r.requestId, r.config.toFirmware⟩ :=
  Codec.go_encode r

theorem length_encode (r : PinConfigReport) : r.encode.length = 63 := by
  have hentry : ∀ n : Gpio, [(r.config n).mode, (r.config n).param].length = 2 := fun _ => rfl
  rw [Codec.go_encode, List.length_append, Lib.length_flatMap hentry, List.length_finRange]
  rfl

/-- The entries of a payload that was encoded. -/
theorem payload_encode (r : PinConfigReport) (n : Gpio) :
    payloadMode r.encode n = (r.config n).mode ∧ payloadParam r.encode n = (r.config n).param := by
  have hentry : ∀ n : Gpio, [(r.config n).mode, (r.config n).param].length = 2 := fun _ => rfl
  have hn : n.val < (List.finRange gpioCount).length := by rw [List.length_finRange]; exact n.isLt
  have hslice : Lib.slice r.encode (3 + 2 * n.val) 2 = [(r.config n).mode, (r.config n).param] := by
    rw [Codec.go_encode, Lib.slice_right (n := 3) rfl, Lib.slice_flatMap hentry _ hn, List.getElem_finRange]
    rfl
  have h : ∀ i < 2, r.encode.getD (3 + 2 * n.val + i) 0 = [(r.config n).mode, (r.config n).param].getD i 0 :=
    fun i hi => by rw [← Lib.getD_slice hi, hslice]
  exact ⟨h 0 (by decide), h 1 (by decide)⟩

/-- The bytes in front of the entries. -/
theorem head_encode (r : PinConfigReport) :
    Host.byteAt r.encode 0 = r.result ∧ Host.byteAt r.encode 1 = r.resultGpio ∧
    Host.byteAt r.encode 2 = r.requestId := by
  rw [Codec.go_encode]
  exact ⟨rfl, rfl, rfl⟩

/-- A report about a configuration with defined modes decodes to what it was encoded from. -/
theorem decode_encode {r : PinConfigReport} (h : ∀ n, (r.config n).mode ≤ modeOutput) :
    decodePinConfig r.encode = .ok r := by
  choose m hm using fun n => Codec.exists_mode (h n)
  have hmode : ∀ n, (m n).toU8 = payloadMode r.encode n := fun n => (hm n).trans (r.payload_encode n).1.symm
  have hconfig : (fun n => (⟨payloadMode r.encode n, payloadParam r.encode n⟩ : PinSetting)) = r.config :=
    funext fun n => by rw [(r.payload_encode n).1, (r.payload_encode n).2]
  have hsettings : decodeSettings r.encode (List.finRange gpioCount) (fun _ => ⟨0, 0⟩) = .ok r.config := by
    rw [Codec.go_settings hmode, Codec.foldl_update_all, hconfig]
  obtain ⟨hresult, hgpio, hid⟩ := r.head_encode
  rw [decodePinConfig, if_neg (not_not.mpr r.length_encode), hsettings, hresult, hgpio, hid]
  rfl

end PinConfigReport

/-! ### Validation -/

/-- A setting that an available pin can have. -/
def PinSetting.Valid (s : PinSetting) : Prop :=
  s.mode ≤ modeOutput ∧ (s.mode = modeUnused → s.param = 0) ∧ (s.mode = modeOutput → s.param ≤ 1)

instance : DecidablePred PinSetting.Valid := fun s =>
  inferInstanceAs (Decidable (s.mode ≤ modeOutput ∧ (s.mode = modeUnused → s.param = 0) ∧
    (s.mode = modeOutput → s.param ≤ 1)))

/-- Whether a configuration uses a GPIO that is not available. -/
def PinConfig.misuses (c : PinConfig) (available : U32) (n : Gpio) : Bool :=
  !rawBit available n && decide ((c n).mode ≠ modeUnused)

theorem PinConfig.misuses_eq_true {c : PinConfig} {available : U32} {n : Gpio} :
    c.misuses available n = true ↔ (available >>> n.val) &&& 1#32 = 0#32 ∧ (c n).mode ≠ modeUnused := by
  rw [misuses, Bool.and_eq_true, Bool.not_eq_true', Codec.rawBit_eq_false, decide_eq_true_iff]

theorem validateEntries_encode {r : PinConfigReport} (h : ∀ n, (r.config n).Valid)
    (available : U32) (id : U8) : ∀ ns : List Gpio, validateEntries r.encode available id ns =
      (ns.find? (r.config.misuses available)).elim (resultOk, resultGpioNone, id)
        fun n => (resultUnavailableGpio, n.toU8, id)
  | [] => rfl
  | n :: ns => by
    have hmode : modeAt r.encode n = (r.config n).mode := (r.payload_encode n).1
    have hparam : paramAt r.encode n = (r.config n).param := (r.payload_encode n).2
    obtain ⟨hle, hunused, houtput⟩ := h n
    rw [validateEntries]
    simp only [hmode, hparam]
    rw [if_neg (BitVec.not_lt.mpr hle), List.find?_cons, validateEntries_encode h available id ns,
      if_neg fun hbad : (r.config n).mode = modeUnused ∧ (r.config n).param ≠ 0 => hbad.2 (hunused hbad.1),
      if_neg fun hbad : (r.config n).mode = modeOutput ∧ (r.config n).param > 1 =>
        BitVec.not_lt.mpr (houtput hbad.1) hbad.2]
    by_cases hmisused : r.config.misuses available n = true
    · rw [if_pos (PinConfig.misuses_eq_true.mp hmisused), hmisused]
      rfl
    · rw [if_neg fun hbad => hmisused (PinConfig.misuses_eq_true.mpr hbad),
        Bool.eq_false_of_not_eq_true hmisused]

/-- Of valid settings only those of missing GPIOs are rejected, the first one by name. -/
theorem validatePinConfig_eq {c : PinConfig} (h : ∀ n, (c n).Valid) (available : U32) :
    validatePinConfig c available = ((List.finRange gpioCount).find? (c.misuses available)).elim
      (resultOk, resultGpioNone) fun n => (resultUnavailableGpio, n.toU8) := by
  rw [validatePinConfig, validatePinConfigPayload, if_neg (not_not.mpr (PinConfigReport.length_encode _)),
    validateEntries_encode (r := ⟨0, 0, 0, c⟩) h]
  cases (List.finRange gpioCount).find? (c.misuses available) <;> rfl

theorem toFirmware_valid_iff {c : PinConfig} {available : U32} : c.toFirmware.Valid available ↔
    (∀ n, (c n).Valid) ∧ ∀ n, c.misuses available n = false := by
  rw [Firmware.PinConfig.Valid, ← forall_and]
  refine forall_congr' fun n => ?_
  have hmisuses : c.misuses available n = false ↔
      (rawBit available n = false → (c n).mode = modeUnused) := by
    rw [PinConfig.misuses]
    cases rawBit available n <;> simp
  rw [hmisuses]
  constructor
  · exact fun ⟨hle, havailable, hunused, houtput⟩ => ⟨⟨hle, hunused, houtput⟩, havailable⟩
  · exact fun ⟨⟨hle, hunused, houtput⟩, havailable⟩ => ⟨hle, havailable, hunused, houtput⟩

end Hidpin.Go
