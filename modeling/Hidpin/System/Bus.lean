import Hidpin.System.Port

/-! One device and the host programs that use it: every feature access is atomic, and the transport
    neither loses nor changes a report. -/

namespace Hidpin.Host

namespace RequestIds

theorem next_ne_zero (x : RequestIds) : (next x).1 ≠ 0 := by
  have hlt : ∀ y : U64, (y % 255).toNat < 255 := fun y => by
    rw [BitVec.toNat_umod]
    exact Nat.mod_lt _ (by decide)
  intro h
  have hy := hlt (next x).2
  have hsum : (((next x).2 % 255).setWidth 8 + 1 : U8).toNat = 0 := congrArg BitVec.toNat h
  bv_omega

theorem draw_ne_zero {last id : U8} {x' : RequestIds} :
    ∀ {k : ℕ} {x : RequestIds}, draw last k x = some (id, x') → id ≠ 0
  | k + 1, x, h => by
    rw [draw] at h
    split at h
    · have hid : (next x).1 = id := congrArg Prod.fst (Option.some.inj h)
      exact hid ▸ next_ne_zero x
    · exact draw_ne_zero h

end RequestIds

/-- The request id drawn is one of 1 to 255. -/
theorem Device.wp_nextRequestId {ω : Type} [World ω] {d : Device} {w : ω}
    {Q : Except Stop U8 → Device × ω → Prop}
    (hdrawn : ∀ id ids, id ≠ 0 → Q (.ok id) ({ d with requestIds := ids, lastRequestId := id }, w))
    (hhangs : Q (.error .hangs) (d, w)) : Device.nextRequestId.wp Q (d, w) := by
  rw [Device.nextRequestId, Lib.Prog.wp_bind, Lib.Prog.wp_gets, Lib.Prog.post_ok]
  rcases hdraw : RequestIds.draw d.lastRequestId (2 ^ 64) d.requestIds with _ | ⟨id, ids⟩
  · simp only [hdraw]
    exact hhangs
  · simp only [hdraw]
    exact hdrawn id ids (RequestIds.draw_ne_zero hdraw)

end Hidpin.Host

namespace Hidpin.System
open Host (Error OsError World PinConfig PinConfigReport DeviceInfo Stop reportIdDeviceInfo
  reportIdPinConfig)
open Lib (Prog)

/-- A feature access. -/
inductive Access where
  | get (reportId : U8)
  | set (payload : List U8)
  deriving DecidableEq

/-- The device, the program that uses it now and the device time then, and every feature access so far
    with its program. -/
structure Bus (ι : Type) where
  device : Firmware.Device
  caller : ι
  nowUs : U64
  accesses : List (ι × Access)

namespace Bus
variable {ι : Type}

/-- Records an access. -/
def accessed (w : Bus ι) (a : Access) : Bus ι := { w with accesses := w.accesses ++ [(w.caller, a)] }

/-- The error of a request that the device does not answer. -/
def stalled : OsError := ⟨"Broken pipe (os error 32)", false⟩

/-- The calls use feature reports only; nothing else is there to answer. -/
instance : World (Bus ι) where
  devices w := (.ok [], w)
  openDevice _ w := (.ok (), w)
  read _ w := (.ok [], w)
  write _ w := (.ok (), w)
  getFeatureReport reportId w :=
    (match w.device.engine.getFeature reportId with
      | some payload => .ok (reportId :: payload)
      | none => .error stalled, w.accessed (.get reportId))
  sendFeatureReport report w :=
    (.ok (), { w.accessed (.set report.tail) with
      device := w.device.setFeature (Host.byteAt report 0) report.tail w.nowUs })
  getInputReport _ w := (.error stalled, w)
  instant w := (0, w)
  systemTime w := (0, w)
  seed w := ((0, 0), w)

/-- The fields behind the feature reports. -/
def features (w : Bus ι) : Firmware.DeviceInfo × Firmware.PinConfigReport := w.device.engine.features

/-- The configuration in force is one the board allows. -/
def Valid (w : Bus ι) : Prop := w.features.2.config.Valid w.features.1.available

/-- What a handle has cached came from this device. -/
def Knows (w : Bus ι) (d : Host.Device) : Prop :=
  ∀ info, d.info = some info → info.available = w.features.1.available

/-! ### What the calls of the library do on the bus -/

variable {d : Host.Device} {w : Bus ι}

theorem wp_getFeature {reportId : U8} {payload : List U8}
    {Q : Except Stop (List U8) → Host.Device × Bus ι → Prop}
    (hfeature : w.device.engine.getFeature reportId = some payload) (hlen : payload.length = 63)
    (h : Q (.ok payload) (d, w.accessed (.get reportId))) :
    (Host.Device.getFeature reportId).wp Q (d, w) := by
  have hcall : (Host.Device.transport (World.getFeatureReport reportId)).exec (d, w) =
      (.ok (reportId :: payload), (d, w.accessed (.get reportId))) := by
    have hanswer : World.getFeatureReport reportId w = (.ok (reportId :: payload),
        w.accessed (.get reportId)) := by
      simp only [World.getFeatureReport, hfeature]
    rw [Host.Device.transport, Prog.exec_bind, Prog.exec_call]
    simp only [hanswer]
    rfl
  have hlong : ¬ (reportId :: payload).length < Host.reportLen := by rw [List.length_cons, hlen]; decide
  have hid : ¬ Host.byteAt (reportId :: payload) 0 ≠ reportId := not_not.mpr rfl
  rw [Host.Device.getFeature, Prog.wp_bind, Prog.wp_of_exec hcall, Prog.post_ok, if_neg hlong, if_neg hid]
  exact h

/-- A read of the configuration gives what the device has. -/
theorem wp_getPinConfig {Q : Except Stop PinConfigReport → Host.Device × Bus ι → Prop} (hvalid : w.Valid)
    (h : ∀ c : PinConfig, c.toFirmware = w.features.2.config →
      Q (.ok ⟨⟨w.features.2.result⟩, w.features.2.resultGpio, w.features.2.requestId, c⟩)
        ({ d with config := some c }, w.accessed (.get reportIdPinConfig))) :
    Host.Device.getPinConfig.wp Q (d, w) := by
  obtain ⟨c, hc, hdecode⟩ := Firmware.Engine.decode_getPinConfig hvalid
  rw [Host.Device.getPinConfig, Prog.wp_bind]
  refine wp_getFeature rfl (Firmware.Engine.length_getPinConfig _) ?_
  rw [Prog.post_ok, hdecode]
  exact h c hc

/-- The information is read at most once, and it names the pins that the device allows. -/
theorem wp_readInfo {Q : Except Stop DeviceInfo → Host.Device × Bus ι → Prop} (hknows : w.Knows d)
    (h : ∀ info d' w', info.available = w.features.1.available → w.Knows d' →
      (w' = w ∨ w' = w.accessed (.get reportIdDeviceInfo)) → Q (.ok info) (d', w')) :
    Host.Device.readInfo.wp Q (d, w) := by
  rw [Host.Device.readInfo, Prog.wp_bind, Prog.wp_gets, Prog.post_ok]
  rcases hd : d.info with _ | info
  · obtain ⟨info, hdecode, hversion, havailable⟩ := w.device.engine.decode_getDeviceInfo
    simp only [hd]
    rw [Prog.wp_bind]
    refine wp_getFeature rfl (Firmware.Engine.length_getDeviceInfo _) ?_
    rw [Prog.post_ok, hdecode]
    have hsame : ¬ info.protocolVersion ≠ Host.protocolVersion := not_not.mpr hversion
    rw [Host.Device.ofExcept, Prog.wp_bind, Prog.wp_pure, Prog.post_ok, if_neg hsame]
    refine h info _ _ havailable (fun i hi => ?_) (Or.inr rfl)
    rw [← Option.some.inj hi]
    exact havailable
  · simp only [hd]
    exact h info d w (hknows info hd) hknows (Or.inl rfl)

/-- The device after a Set. -/
def written (w : Bus ι) (payload : List U8) : Bus ι :=
  { w.accessed (.set payload) with device := w.device.step (.setPinConfig payload w.nowUs) }

/-- A Set of a valid configuration is what the device has then. -/
theorem features_written {r : PinConfigReport} (h : r.config.toFirmware.Valid w.features.1.available) :
    (w.written r.encode).features =
      (w.features.1, ⟨Firmware.resultOk, Firmware.resultGpioNone, r.requestId, r.config.toFirmware⟩) :=
  Firmware.Engine.features_setPinConfig h w.nowUs

end Bus

end Hidpin.System
