import Hidpin.Codec.PinConfig
import Hidpin.Host.Device

/-! The feature reports of the device (`firmware/app/main.c`), and what a host reads through them: the
    device information and the pin configuration with the outcome of the latest Set. -/

namespace Hidpin.Firmware

namespace Engine

/-- `tud_hid_get_report_cb` for a feature report; it answers nothing to an unknown report ID. -/
def getFeature (e : Engine) (reportId : U8) : Option (List U8) :=
  if reportId = Host.reportIdDeviceInfo then some e.getDeviceInfo
  else if reportId = Host.reportIdPinConfig then some e.getPinConfig
  else none

/-- The fields behind the feature reports. -/
def features (e : Engine) : DeviceInfo × PinConfigReport :=
  (e.info, ⟨e.result, e.resultGpio, e.requestId, e.config⟩)

theorem features_frame {e e' : Engine} (hinfo : e'.info = e.info) (hresult : e'.result = e.result)
    (hgpio : e'.resultGpio = e.resultGpio) (hid : e'.requestId = e.requestId)
    (hconfig : e'.config = e.config) : e'.features = e.features := by
  rw [features, hinfo, hresult, hgpio, hid, hconfig]
  rfl

theorem features_of_frame {e e' : Engine} (h : Frame e e') : e'.features = e.features :=
  features_frame (congrArg Engine.info h :) (congrArg Engine.result h :) (congrArg Engine.resultGpio h :)
    (congrArg Engine.requestId h :) (congrArg Engine.config h :)

end Engine

namespace Device
open Engine

/-- `tud_hid_set_report_cb` for a feature report. -/
def setFeature (d : Device) (reportId : U8) (payload : List U8) (nowUs : U64) : Device :=
  if reportId = Host.reportIdPinConfig then d.step (.setPinConfig payload nowUs) else d

/-- Only a Set changes what the feature reports say. -/
theorem features_step (d : Device) {op : Op} (hop : ∀ payload nowUs, op ≠ .setPinConfig payload nowUs) :
    (d.step op).engine.features = d.engine.features := by
  cases op with
  | onEdge gpio raw nowUs => exact features_of_frame (d.engine.frame_onEdge gpio raw nowUs)
  | resync raw nowUs => exact features_of_frame (d.engine.frame_resync raw nowUs)
  | task nowUs inputs =>
    have hpoll : ∀ e : Engine, (e.pollTask nowUs).features = e.features := fun e => by
      have hframe : (e.pollPins nowUs).features = e.features := features_of_frame (e.frame_pollPins nowUs)
      unfold pollTask
      split_ifs
      · exact hframe
      · exact hframe
    simp only [step, task_eq, hpoll]
    cases d.engine.settles nowUs
    · rfl
    · rw [if_pos rfl, finishSettle_eq]
      rfl
  | setPinConfig payload nowUs => exact absurd rfl (hop payload nowUs)
  | output payload =>
    simp only [step, output]
    split <;> rfl
  | usbReset =>
    simp only [step, usbReset]
    split_ifs <;> rfl
  | send nowUs accepted =>
    simp only [step, sendStatusReport_eq]
    split_ifs <;> rfl
  | _ => rfl

/-- The board stays the same. -/
theorem info_step (d : Device) (op : Op) : (d.step op).engine.info = d.engine.info := by
  by_cases hop : ∃ payload nowUs, op = .setPinConfig payload nowUs
  · obtain ⟨payload, nowUs, rfl⟩ := hop
    rcases d.engine.setPinConfig_cases payload nowUs with ⟨_, heq⟩ | ⟨next, _, ha⟩
    · exact (congrArg Engine.info heq :)
    · exact (congrArg Engine.info ha.rest :)
  · exact congrArg Prod.fst (d.features_step fun payload nowUs h => hop ⟨payload, nowUs, h⟩)

theorem info_run (info : DeviceInfo) (startUs : U64) (ops : List Op) :
    (Lib.run step (start info startUs) ops).engine.info = info := by
  refine Lib.run_preserves (P := fun d : Device => d.engine.info = info)
    (fun d op h => (d.info_step op).trans h) ops ?_
  rw [start, init_eq]
  rfl

end Device

namespace Engine

theorem features_of_applyCore {e e' : Engine} (h : e'.applyCore = e.applyCore) : e'.features = e.features :=
  features_frame (congrArg Engine.info h :) (congrArg Engine.result h :) (congrArg Engine.resultGpio h :)
    (congrArg Engine.requestId h :) (config_of_applyCore h)

theorem features_applyConfig (e : Engine) (next : PinConfig) (nowUs : U64) :
    (e.applyConfig next nowUs).features = (e.info, ⟨e.result, e.resultGpio, e.requestId, next⟩) := by
  have hconfig := (e.applied next nowUs).config
  have hpins := features_of_applyCore (e.applyPins_core next nowUs)
  unfold applyConfig at hconfig ⊢
  generalize e.applyPins next nowUs = s at hconfig hpins ⊢
  dsimp only at hconfig ⊢
  split
  · exact congrArg (fun f : DeviceInfo × PinConfigReport => (f.1, { f.2 with config := next })) hpins
  · next hs =>
    rw [if_neg hs] at hconfig
    rw [hpins, features, ← hconfig, show s.1.config = e.config from congrArg (fun f => f.2.config) hpins]

/-- What the features say after a Set of a valid configuration. -/
theorem features_setPinConfig {e : Engine} {r : Host.PinConfigReport}
    (h : r.config.toFirmware.Valid e.info.available) (nowUs : U64) :
    (e.setPinConfig r.encode nowUs).features =
      (e.info, ⟨resultOk, resultGpioNone, r.requestId, r.config.toFirmware⟩) := by
  have hlen := r.length_encode
  rw [← r.payloadConfig_encode] at h ⊢
  have hdecoded : pinConfigDecodeSet r.encode e.info.available =
      ⟨resultOk, r.requestId, resultGpioNone, some (payloadConfig r.encode)⟩ := by
    have hentries := decodeEntries_of_valid r.encode e.info.available (List.finRange gpioCount) blankConfig
      fun n _ => h n
    have hid : r.encode.getD 2 0 = r.requestId := rfl
    rw [pinConfigDecodeSet, if_neg (not_not.mpr hlen), hentries, storeEntries_all, if_pos (by omega), hid]
  simp only [setPinConfig, hdecoded, features_applyConfig]
  rfl

/-- A pin that a Set drives is an output of its configuration, and had another entry before. -/
theorem entry_of_setOutput {e : Engine} {payload : List U8} {nowUs : U64} {n : Gpio} {level : Bool}
    (h : .setOutput n level ∈ (e.setPinConfig payload nowUs).hw.drop e.hw.length) :
    (payloadConfig payload).mode n = modeOutput ∧ sameEntry e.config (payloadConfig payload) n = false := by
  rcases e.setPinConfig_cases payload nowUs with ⟨_, heq⟩ | ⟨next, hnext, ha⟩
  · rw [heq, recordResult, List.drop_length] at h
    cases h
  · rw [ha.hw, List.drop_left] at h
    obtain ⟨m, -, hm⟩ := List.mem_flatMap.mp h
    rw [← (acceptedConfig_eq_some.mp hnext).2]
    unfold appliedCalls at hm
    split_ifs at hm with hsame hinput hmode houtput
    · cases hm
    · cases hm
    · cases List.mem_singleton.mp hm
    · cases List.mem_singleton.mp hm
      exact ⟨houtput, Bool.eq_false_of_not_eq_true hsame⟩
    · cases List.mem_singleton.mp hm

/-! ### What a host reads -/

/-- The configuration report decodes to the fields behind it. -/
theorem decode_getPinConfig {e : Engine} (h : e.config.Valid e.info.available) :
    ∃ c : Host.PinConfig, c.toFirmware = e.config ∧
      Host.decodePinConfig e.getPinConfig = .ok ⟨⟨e.result⟩, e.resultGpio, e.requestId, c⟩ := by
  obtain ⟨c, hc⟩ := Host.PinConfig.exists_toFirmware h
  refine ⟨c, hc, ?_⟩
  rw [getPinConfig, ← hc]
  exact Host.PinConfigReport.decode_encode ⟨⟨e.result⟩, e.resultGpio, e.requestId, c⟩

theorem length_getPinConfig (e : Engine) : e.getPinConfig.length = 63 := by
  have hentry : ∀ n : Gpio, [e.config.mode n, e.config.param n].length = 2 := fun _ => rfl
  rw [getPinConfig, encodePinConfig, List.length_append, Lib.length_flatMap hentry, List.length_finRange]
  rfl

theorem length_getDeviceInfo (e : Engine) : e.getDeviceInfo.length = 63 := by
  have hname : (((e.info.sdkBoard.getD []).take sdkBoardLen).takeWhile (· ≠ 0)).length ≤ 40 :=
    ((List.takeWhile_prefix _).length_le).trans (List.length_take_le _ _)
  simp only [getDeviceInfo, encodeDeviceInfo, List.length_append, List.length_cons, List.length_nil,
    Lib.length_toBytes, List.length_replicate, show reportPayloadLen = 63 from rfl]
  omega

theorem length_getFeature {e : Engine} {reportId : U8} {payload : List U8}
    (h : e.getFeature reportId = some payload) : payload.length = 63 := by
  rw [getFeature] at h
  split_ifs at h
  · exact Option.some.inj h ▸ e.length_getDeviceInfo
  · exact Option.some.inj h ▸ e.length_getPinConfig

/-- The device information decodes, with the version of the protocol and the available pins. -/
theorem decode_getDeviceInfo (e : Engine) :
    ∃ info : Host.DeviceInfo, Host.decodeDeviceInfo e.getDeviceInfo = .ok info ∧
      info.protocolVersion = Host.protocolVersion ∧ info.available = e.info.available := by
  refine ⟨_, if_neg (not_not.mpr e.length_getDeviceInfo), rfl, ?_⟩
  exact Lib.ofBytes_toBytes (k := 4) e.info.available (by decide)

end Engine

end Hidpin.Firmware
