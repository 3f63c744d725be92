import Hidpin.Codec.Validation

/-! Pin configurations between the host library and the firmware: what one side encodes is what the other
    side decodes, and both accept the same ones. -/

namespace Hidpin.Host
open Firmware (Gpio gpioCount payloadMode payloadParam)

/-- A configuration of the host, as the firmware stores it. -/
def PinConfig.toFirmware (c : PinConfig) : Firmware.PinConfig :=
  ⟨fun n => (c n).mode.toU8, fun n => (c n).param⟩

namespace PinConfig

theorem toFirmware_injective : Function.Injective toFirmware := by
  intro c c' h
  funext n
  have hmode : (c n).mode.toU8 = (c' n).mode.toU8 := congrFun (congrArg Firmware.PinConfig.mode h) n
  have hparam : (c n).param = (c' n).param := congrFun (congrArg Firmware.PinConfig.param h) n
  have hsome : some (c n).mode = some (c' n).mode := by rw [← PinMode.ofU8_toU8, hmode, PinMode.ofU8_toU8]
  cases hc : c n
  cases hc' : c' n
  simp_all

@[simp] theorem toFirmware_inj {c c' : PinConfig} : c.toFirmware = c'.toFirmware ↔ c = c' :=
  toFirmware_injective.eq_iff

/-- A configuration that passes the validation is one of the host. -/
theorem exists_toFirmware {available : U32} {c : Firmware.PinConfig} (h : c.Valid available) :
    ∃ c' : PinConfig, c'.toFirmware = c := by
  choose m hm using fun n => Codec.exists_mode (h n).1
  exact ⟨fun n => ⟨m n, c.param n⟩, Firmware.PinConfig.ext (funext hm) rfl⟩

end PinConfig

/-! ### Payloads -/

namespace PinConfigReport

/-- The two bytes of an entry. -/
theorem length_entry (c : PinConfig) (n : Gpio) : [(c n).mode.toU8, (c n).param].length = 2 := rfl

theorem length_encode (r : PinConfigReport) : r.encode.length = 63 := by
  rw [encode, List.length_append, Lib.length_flatMap (length_entry r.config), List.length_finRange]
  rfl

/-- The entries of a payload that was encoded. -/
theorem payload_encode (r : PinConfigReport) (n : Gpio) :
    payloadMode r.encode n = (r.config n).mode.toU8 ∧ payloadParam r.encode n = (r.config n).param := by
  have hn : n.val < (List.finRange gpioCount).length := by rw [List.length_finRange]; exact n.isLt
  have hslice : Lib.slice r.encode (3 + 2 * n.val) 2 = [(r.config n).mode.toU8, (r.config n).param] := by
    rw [encode, Lib.slice_right (n := 3) rfl, Lib.slice_flatMap (length_entry r.config) _ hn,
      List.getElem_finRange]
    rfl
  have h : ∀ i < 2, r.encode.getD (3 + 2 * n.val + i) 0 =
      [(r.config n).mode.toU8, (r.config n).param].getD i 0 :=
    fun i hi => by rw [← Lib.getD_slice hi, hslice]
  exact ⟨h 0 (by decide), h 1 (by decide)⟩

theorem payloadConfig_encode (r : PinConfigReport) : Firmware.payloadConfig r.encode = r.config.toFirmware :=
  Firmware.PinConfig.ext (funext fun n => (payload_encode r n).1) (funext fun n => (payload_encode r n).2)

/-- A report decodes to what it was encoded from. -/
theorem decode_encode (r : PinConfigReport) : decodePinConfig r.encode = .ok r := by
  have hmode : ∀ n, (r.config n).mode.toU8 = payloadMode r.encode n := fun n => (payload_encode r n).1.symm
  have hparam : (fun n => (⟨(r.config n).mode, payloadParam r.encode n⟩ : PinSetting)) = r.config :=
    funext fun n => by rw [(payload_encode r n).2]
  rw [decodePinConfig, if_neg (not_not.mpr (length_encode r)), Codec.rust_settings hmode,
    Codec.foldl_update_all, hparam]
  rfl

/-- The firmware encodes a report as the host does. -/
theorem firmware_encode (r : PinConfigReport) :
    Firmware.encodePinConfig ⟨r.result.code, r.resultGpio, r.requestId, r.config.toFirmware⟩ = r.encode :=
    rfl

end PinConfigReport

/-! ### Validation -/

/-- The host and the firmware give a payload of the right length the same result. -/
theorem result_agrees {payload : List U8} (hlen : payload.length = 63) (available : U32) :
    (validatePinConfigPayload payload available).1.code =
      (Firmware.pinConfigDecodeSet payload available).result := by
  have hrust : (validateEntries payload available (List.finRange gpioCount)).1.code = _ :=
    congrArg Prod.fst (Codec.rust_entries payload available (List.finRange gpioCount))
  have hfirmware : (Firmware.pinConfigDecodeSet payload available).result = _ :=
    congrArg Prod.fst (Codec.decodeSet_agrees payload available).1
  rw [Codec.firstFailing_checks, if_neg (not_not.mpr hlen)] at hfirmware
  rw [validatePinConfigPayload, if_neg (not_not.mpr hlen), hfirmware]
  exact hrust

/-- The validation of the host passes the configurations that are valid on the board. -/
theorem validatePinConfig_ok {c : PinConfig} {available : U32} :
    (validatePinConfig c available).1 = .ok ↔ c.toFirmware.Valid available := by
  let r : PinConfigReport := ⟨.ok, resultGpioNone, 1, c⟩
  have hcode : (validatePinConfig c available).1.code =
      (Firmware.pinConfigDecodeSet r.encode available).result :=
    result_agrees r.length_encode available
  have hvalid := @Firmware.decodeSet_result r.encode available
  rw [r.payloadConfig_encode, ← hcode, and_iff_right r.length_encode] at hvalid
  refine Iff.trans ⟨fun h => congrArg ResultCode.code h, fun h => ?_⟩ hvalid
  cases hr : (validatePinConfig c available).1
  rw [hr] at h
  exact congrArg ResultCode.mk h

end Hidpin.Host
