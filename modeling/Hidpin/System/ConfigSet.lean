import Hidpin.Cli.Commands
import Hidpin.System.Bus

/-! `hidpin config set` on the device: the pins that the arguments name get their settings and the others
    keep theirs, or nothing is written. -/

namespace Hidpin.Firmware.Engine

/-- The device information as the Go library decodes it. -/
theorem go_decode_getDeviceInfo (e : Engine) :
    ∃ info : Go.DeviceInfo, Go.decodeDeviceInfo e.getDeviceInfo = .ok info ∧
      info.protocolVersion = Host.protocolVersion ∧ info.available = e.info.available := by
  refine ⟨_, if_neg (not_not.mpr e.length_getDeviceInfo), rfl, ?_⟩
  exact Lib.ofBytes_toBytes (k := 4) e.info.available (by decide)

/-- The configuration report, decoded by the Go library. -/
theorem go_decode_getPinConfig {e : Engine} (h : e.config.Valid e.info.available) :
    Go.decodePinConfig e.getPinConfig =
      .ok ⟨e.result, e.resultGpio, e.requestId, Go.ofFirmware e.config⟩ := by
  have hencode : e.getPinConfig =
      Go.PinConfigReport.encode ⟨e.result, e.resultGpio, e.requestId, Go.ofFirmware e.config⟩ := by
    rw [Go.PinConfigReport.firmware_encode, Go.toFirmware_ofFirmware]
    rfl
  rw [hencode]
  exact Go.PinConfigReport.decode_encode fun n => (h n).1

end Hidpin.Firmware.Engine

namespace Hidpin.System.Bus
open Cli (Session Screen Failure collect parsePinSpec misuse)
open Host (World reportIdDeviceInfo reportIdPinConfig resultGpioNone)
open Firmware (Gpio gpioCount)
open Go (PinSetting PinConfig)
open Lib (Prog)
open Lib.Prog (Keeps Stops post)

/-! ### What the calls of the Go library do on the bus -/

section Calls
variable {ι : Type} {d : Go.Device} {w : Bus ι}

/-- What a handle of the Go library has cached came from this device. -/
def Informs (w : Bus ι) (d : Go.Device) : Prop :=
  ∀ info, d.info = some info → info.available = w.features.1.available

theorem go_getFeature {reportId : U8} {payload : List U8}
    {Q : Except Go.Stop (List U8) → Go.Device × Bus ι → Prop}
    (hfeature : w.device.engine.getFeature reportId = some payload) (hlen : payload.length = 63)
    (h : Q (.ok payload) (d, w.accessed (.get reportId))) : (Go.Device.getFeature reportId).wp Q (d, w) := by
  have hanswer : World.getFeatureReport reportId w = (.ok (reportId :: payload),
      w.accessed (.get reportId)) := by
    simp only [World.getFeatureReport, hfeature]
  have hcall : ∀ context, (Go.Device.transport context (World.getFeatureReport reportId)).exec (d, w) =
      (.ok (reportId :: payload), (d, w.accessed (.get reportId))) := by
    intro context
    rw [Go.Device.transport, Prog.exec_bind, Prog.exec_call]
    simp only [hanswer]
    rfl
  have hlong : ¬ (reportId :: payload).length < Host.reportLen := by rw [List.length_cons, hlen]; decide
  have hid : ¬ Host.byteAt (reportId :: payload) 0 ≠ reportId := not_not.mpr rfl
  rw [Go.Device.getFeature, Prog.wp_bind, Prog.wp_of_exec (hcall _), Prog.post_ok, if_neg hlong, if_neg hid]
  exact h

theorem go_getPinConfig {Q : Except Go.Stop Go.PinConfigReport → Go.Device × Bus ι → Prop} (hvalid : w.Valid)
    (h : Q
      (.ok ⟨w.features.2.result, w.features.2.resultGpio, w.features.2.requestId,
        Go.ofFirmware w.features.2.config⟩)
      ({ d with config := some (Go.ofFirmware w.features.2.config) }, w.accessed (.get reportIdPinConfig))) :
    Go.Device.getPinConfig.wp Q (d, w) := by
  rw [Go.Device.getPinConfig, Prog.wp_bind]
  refine go_getFeature rfl (Firmware.Engine.length_getPinConfig _) ?_
  rw [Prog.post_ok, Firmware.Engine.go_decode_getPinConfig hvalid]
  exact h

theorem go_readInfo {Q : Except Go.Stop Go.DeviceInfo → Go.Device × Bus ι → Prop} (hknows : w.Informs d)
    (h : ∀ info d' w', info.available = w.features.1.available → w'.device = w.device →
      Q (.ok info) (d', w')) : Go.Device.readInfo.wp Q (d, w) := by
  rw [Go.Device.readInfo, Prog.wp_bind, Prog.wp_gets, Prog.post_ok]
  rcases hd : d.info with _ | info
  · obtain ⟨info, hdecode, hversion, havailable⟩ := w.device.engine.go_decode_getDeviceInfo
    simp only [hd]
    rw [Prog.wp_bind]
    refine go_getFeature rfl (Firmware.Engine.length_getDeviceInfo _) ?_
    rw [Prog.post_ok, hdecode]
    have hsame : ¬ info.protocolVersion ≠ Host.protocolVersion := not_not.mpr hversion
    rw [Go.Device.ofExcept, Prog.wp_bind, Prog.wp_pure, Prog.post_ok, if_neg hsame]
    exact h info _ _ havailable rfl
  · simp only [hd]
    exact h info d w (hknows info hd) rfl

theorem draw_ne_zero {last id : U8} {draws : List (Fin 255)} :
    ∀ {l : List (Fin 255)}, Go.Device.draw last l = some (id, draws) → id ≠ 0
  | r :: l, h => by
    rw [Go.Device.draw] at h
    split_ifs at h
    · obtain ⟨rfl, -⟩ := Prod.mk.inj (Option.some.inj h)
      have hr : r.val < 255 := r.isLt
      bv_omega
    · exact draw_ne_zero h

/-- A Set of a valid configuration of the Go library is what the device has then. -/
theorem go_features_written {r : Go.PinConfigReport} (h : r.config.toFirmware.Valid w.features.1.available) :
    (w.written r.encode).features =
      (w.features.1, ⟨Firmware.resultOk, Firmware.resultGpioNone, r.requestId, r.config.toFirmware⟩) := by
  obtain ⟨c, hc⟩ := Host.PinConfig.exists_toFirmware h
  have hencode : r.encode = Host.PinConfigReport.encode ⟨⟨r.result⟩, r.resultGpio, r.requestId, c⟩ := by
    rw [r.firmware_encode, ← hc]
    rfl
  rw [← hc] at h ⊢
  rw [hencode]
  exact features_written h

theorem go_send (context : String) (payload : List U8) (Q : Except Go.Stop Unit → Go.Device × Bus ι → Prop) :
    (Go.Device.transport context (World.sendFeatureReport (reportIdPinConfig :: payload))).wp Q (d, w) ↔
      Q (.ok ()) (d, w.written payload) := Iff.rfl

/-- A configuration that the library's own check lets through is written, read back and in force. -/
theorem go_setPinConfig {config : PinConfig} (hknows : w.Informs d)
    (hcheck : (Go.validatePinConfig config w.features.1.available).1 = Go.resultOk →
      config.toFirmware.Valid w.features.1.available) :
    (Go.Device.setPinConfig config).wp (post
      (fun _ s => (Go.validatePinConfig config w.features.1.available).1 = Go.resultOk ∧
        Go.ofFirmware s.2.features.2.config = config)
      fun e s => s.2.device = w.device ∧ (e = .hangs ∨ ∃ result gpio, result ≠ Go.resultOk ∧
        Go.validatePinConfig config w.features.1.available = (result, gpio) ∧
        e = .error (.pinConfigRejected result gpio true))) (d, w) := by
  rw [Go.Device.setPinConfig, Prog.wp_bind]
  refine @go_readInfo ι d w _ hknows ?_
  intro info d' w' havailable hdevice
  rw [Prog.post_ok, havailable]
  dsimp only
  generalize Go.validatePinConfig config w.features.1.available = checked at hcheck ⊢
  obtain ⟨result, gpio⟩ := checked
  dsimp only at hcheck ⊢
  by_cases hok : result = Go.resultOk
  swap
  · rw [if_pos hok]
    exact ⟨hdevice, .inr ⟨result, gpio, hok, rfl, rfl⟩⟩
  rw [if_neg (not_not.mpr hok), Prog.wp_bind, Go.Device.nextRequestId, Prog.wp_bind,
    Prog.wp_gets, Prog.post_ok]
  rcases hdraw : Go.Device.draw d'.lastRequestId d'.draws with _ | ⟨id, draws⟩
  · simp only [hdraw]
    exact ⟨hdevice, .inl rfl⟩
  have hpayload : Go.encodePinConfigSet config id = .ok _ := if_neg (draw_ne_zero hdraw)
  have hfeatures : w'.features = w.features :=
    congrArg (fun x : Firmware.Device => x.engine.features) hdevice
  have hvalid : config.toFirmware.Valid w'.features.1.available := by
    rw [hfeatures]
    exact hcheck hok
  have hwritten := @go_features_written ι w' ⟨Go.resultOk, resultGpioNone, id, config⟩ hvalid
  simp only [hdraw]
  rw [Prog.wp_bind, Go.Device.set, Prog.wp_update, Prog.post_ok, Prog.wp_pure, Prog.post_ok,
    Prog.wp_bind, hpayload, Go.Device.ofExcept, Prog.wp_pure, Prog.post_ok, Prog.wp_bind]
  dsimp only
  rw [go_send, Prog.post_ok, Prog.wp_bind]
  -- What is read back is what the firmware says after the write.
  generalize w'.written (Go.PinConfigReport.encode ⟨Go.resultOk, resultGpioNone, id, config⟩) =
    v at hwritten ⊢
  dsimp only at hwritten
  have hv : v.Valid := by
    rw [Valid, hwritten]
    exact hvalid
  refine go_getPinConfig hv ?_
  have hsame : Firmware.resultOk = Go.resultOk := rfl
  rw [hwritten, Prog.post_ok]
  dsimp only
  rw [if_neg (not_not.mpr rfl), if_neg (not_not.mpr hsame),
    if_neg (not_not.mpr (Go.ofFirmware_toFirmware config)), Prog.wp_pure, Prog.post_ok]
  refine ⟨hok, ?_⟩
  change Go.ofFirmware v.features.2.config = config
  rw [hwritten, Go.ofFirmware_toFirmware]

/-- The settings reach the device all together. -/
def Applied (w w' : Bus ι) (settings : Gpio → Option PinSetting) : Prop :=
  (∀ n, misuse settings w.features.1.available n = false) ∧
    Go.ofFirmware w'.features.2.config = (Go.ofFirmware w.features.2.config).withPins settings

/-- The library refuses to use a GPIO that the device does not have, and names the first of them, or its
    random numbers never give another request id. -/
def Refused (w : Bus ι) (settings : Gpio → Option PinSetting) (e : Go.Stop) : Prop :=
  e = .hangs ∨ ∃ n, (List.finRange gpioCount).find? (misuse settings w.features.1.available) = some n ∧
    e = .error (.pinConfigRejected Go.resultUnavailableGpio n.toU8 true)

/-- An update of the configuration writes all settings, or it is refused before anything is written. -/
theorem go_updatePins {settings : Gpio → Option PinSetting}
    (hsettings : ∀ n s, settings n = some s → s.Valid) (hvalid : w.Valid) (hknows : w.Informs d) :
    (Go.Device.updatePins settings).wp
      (post (fun _ s => w.Applied s.2 settings) fun e s => s.2.device = w.device ∧ w.Refused settings e)
      (d, w) := by
  obtain ⟨hchecked, hiff⟩ := Cli.validate_withPins hsettings hvalid
  have hfree : (List.finRange gpioCount).find? (misuse settings w.features.1.available) = none →
      ∀ n, misuse settings w.features.1.available n = false := fun hnone n =>
    Bool.eq_false_of_not_eq_true (List.find?_eq_none.mp hnone n (List.mem_finRange n))
  have hok : (Go.validatePinConfig ((Go.ofFirmware w.features.2.config).withPins settings)
      w.features.1.available).1 = Go.resultOk → ∀ n, misuse settings w.features.1.available n = false := by
    rw [hchecked]
    cases hfind : (List.finRange gpioCount).find? (misuse settings w.features.1.available) with
    | none => exact fun _ => hfree hfind
    | some n =>
      have hne : Go.resultUnavailableGpio ≠ Go.resultOk := by decide
      exact fun h => absurd h hne
  rw [Go.Device.updatePins, Prog.wp_bind]
  refine go_getPinConfig hvalid ?_
  rw [Prog.post_ok]
  refine Prog.wp_mono (go_setPinConfig (w := w.accessed (.get reportIdPinConfig)) hknows
    fun h => hiff.mpr (hok h)) fun r s hr => ?_
  cases r with
  | ok report => exact ⟨hok hr.1, hr.2⟩
  | error e =>
    refine ⟨hr.1, ?_⟩
    rcases hr.2 with hhangs | ⟨result, gpio, hresult, hrejected, he⟩
    · exact .inl hhangs
    · refine .inr ?_
      have hfound := hchecked.symm.trans hrejected
      cases hfind : (List.finRange gpioCount).find? (misuse settings w.features.1.available) with
      | none =>
        rw [hfind] at hfound
        cases hfound
        exact absurd rfl hresult
      | some n =>
        rw [hfind] at hfound
        cases hfound
        exact ⟨n, rfl, he⟩

end Calls

/-! ### The command -/

section Command
variable {ι α β : Type}

/-- The program ends with a value and leaves the device's configuration as it is. -/
def Calm (m : Session (Bus ι) α) : Prop :=
  ∀ s, m.wp (post (fun _ s' => s'.2.2.features = s.2.2.features) fun _ _ => False) s

theorem Calm.bind {m : Session (Bus ι) α} {f : α → Session (Bus ι) β} (hm : Calm m) (hf : ∀ a, Calm (f a)) :
    Calm (m >>= f) := by
  intro s
  refine Prog.wp_then (hm s) fun a s' hs' => ?_
  rw [← hs']
  exact hf a s'

theorem calm_print (text : String) : Calm (Session.print text : Session (Bus ι) Unit) := fun _ => rfl

theorem calm_warn (text : String) : Calm (Session.warn text : Session (Bus ι) Unit) := fun _ => rfl

theorem calm_each {f : β → Session (Bus ι) Unit} (hf : ∀ b, Calm (f b)) : ∀ l : List β, Calm (Prog.each f l)
  | [] => fun _ => rfl
  | b :: l => (hf b).bind fun _ => calm_each hf l

theorem calm_lines (json : Bool) (text : String) (line : β → String) (l : List β) :
    Calm (if json = true then Session.print text
      else Prog.each (fun b => Session.print (line b)) l : Session (Bus ι) Unit) := by
  split_ifs
  · exact calm_print text
  · exact calm_each (fun b => calm_print (line b)) l

theorem keeps_getFeature (x : Firmware.DeviceInfo × Firmware.PinConfigReport) (reportId : U8) :
    Keeps (fun s : Go.Device × Bus ι => s.2.features = x) (Go.Device.getFeature reportId) := by
  refine .bind (.bind (.call fun _ h => h) fun r => ?_) fun buf => ?_
  · cases r with
    | error e => exact .throw _
    | ok buf => exact .pure _
  · split_ifs
    · exact .throw _
    · exact .throw _
    · exact .pure _

theorem keeps_readInfo (x : Firmware.DeviceInfo × Firmware.PinConfigReport) :
    Keeps (fun s : Go.Device × Bus ι => s.2.features = x) Go.Device.readInfo := by
  refine .bind (.gets _) fun r => ?_
  cases r with
  | some info => exact .pure _
  | none =>
    refine .bind (keeps_getFeature x _) fun payload => .bind ?_ fun info => ?_
    · cases Go.decodeDeviceInfo payload with
      | error e => exact .throw _
      | ok info => exact .pure _
    · split_ifs
      · exact .throw _
      · exact .bind (.update fun _ h => h) fun _ => .pure _

/-- Looking for the known problems of the device; an error is passed over. -/
theorem calm_info : Calm (Prog.catching some (Session.device Go.Device.readInfo) :
    Session (Bus ι) (Except Failure Go.DeviceInfo)) := by
  intro s
  have hkept := keeps_readInfo s.2.2.features (s.1, s.2.2) rfl
  rw [Prog.wp_catching, Session.device, Prog.wp_embed, Prog.wp]
  cases (Go.Device.readInfo.exec (s.1, s.2.2)).1 with
  | error e => exact hkept
  | ok info => exact hkept

/-- How `config set` ends. -/
inductive Ends (w : Bus ι) (settings : Gpio → Option PinSetting) : Except Failure Unit → Bus ι → Prop where
  | applied {w' : Bus ι} (h : w.Applied w' settings) : Ends w settings (.ok ()) w'
  | refused {w' : Bus ι} (stop) (hdevice : w'.device = w.device) (h : w.Refused settings stop) :
    Ends w settings (.error (.ofStop stop)) w'

/-- Nothing behind the write changes what was written. -/
theorem Calm.ends {m : Session (Bus ι) Unit} (hm : Calm m) {w : Bus ι} {settings : Gpio → Option PinSetting}
    {s : Go.Device × Screen × Bus ι} (h : w.Applied s.2.2 settings) :
    m.wp (fun r s' => w.Ends settings r s'.2.2) s := by
  refine Prog.wp_mono (hm s) fun r s' hs' => ?_
  cases r with
  | error e => exact hs'.elim
  | ok _ => exact .applied ⟨h.1, (congrArg (fun x => Go.ofFirmware x.2.config) hs').trans h.2⟩

theorem valid_run {w : Bus ι} {info : Firmware.DeviceInfo} {startUs : U64} {ops : List Firmware.Op}
    (hrun : w.device = Lib.run Firmware.Device.step (.start info startUs) ops) : w.Valid := by
  rw [Valid, features, hrun]
  exact (Firmware.Device.inv_run info startUs ops).valid

/-- `config set`, with arguments that are all read, whatever the device has done before: the pins that the
    arguments name have their last setting then and all others the one they had; or one of them is not on the
    device, the first of these is named, and the device is as it was. Between the accesses the device does
    nothing. -/
theorem config_set_applies {specs : List (List Char)} {settings : Gpio → Option PinSetting}
    (hspecs : collect parsePinSpec specs (fun _ => none) = .ok settings) (json : Bool) {d : Go.Device}
    (screen : Screen) {w : Bus ι} {info : Firmware.DeviceInfo} {startUs : U64} {ops : List Firmware.Op}
    (hrun : w.device = Lib.run Firmware.Device.step (.start info startUs) ops) (hknows : w.Informs d) :
    (Cli.cmdConfigSet json specs).wp (fun r s => w.Ends settings r s.2.2) (d, screen, w) := by
  rw [Cli.cmdConfigSet, hspecs, Prog.wp_bind, Cli.usageError, Prog.wp_pure, Prog.post_ok, Prog.wp_bind,
    Session.device, Prog.wp_embed]
  refine Prog.wp_mono (go_updatePins (fun n s hs => Cli.collected_valid hspecs hs) (valid_run hrun) hknows)
    fun r s hr => ?_
  cases r with
  | error stop => exact .refused stop hr.1 hr.2
  | ok report =>
    have hok : (Except.mapError Failure.ofStop (.ok report)) = .ok report := rfl
    rw [hok, Prog.post_ok]
    refine Calm.ends (calm_info.bind fun r => ?_) hr
    dsimp only
    cases r with
    | error e => exact calm_lines _ _ _ _
    | ok info =>
      dsimp only
      cases Cli.pullDownWarning info report.config with
      | some warning => exact (calm_warn warning).bind fun _ => calm_lines _ _ _ _
      | none => exact calm_lines _ _ _ _

/-- A device that was just plugged in. -/
def plugged : Bus Unit := ⟨.start (Firmware.Device.sampleInfo 0x3FFFFFFF) 0, (), 0, []⟩

/-- An output and an input with a pull-down, neither of which is the default. -/
def twoSettings (output input : Gpio) : Gpio → Option PinSetting :=
  Function.update (Function.update (fun _ => none) output (some (.output false))) input
    (some (.monitorPullDown 8))

theorem config_set_applies_sample :
    (Cli.cmdConfigSet false ["7=out:low".toList, "5=pulldown:8".toList]).wp
      (fun r s => plugged.Ends (twoSettings 7 5) r s.2.2) (Go.Device.new "" [7], ⟨[], []⟩, plugged) := by
  have hspecs : collect parsePinSpec ["7=out:low".toList, "5=pulldown:8".toList] (fun _ => none) =
      .ok (twoSettings 7 5) := rfl
  have hrun : plugged.device = Lib.run Firmware.Device.step
      (.start (Firmware.Device.sampleInfo 0x3FFFFFFF) 0) [] := by rw [Lib.run_nil, plugged]
  have hknows : plugged.Informs (Go.Device.new "" [7]) := fun _ h => by cases h
  exact config_set_applies hspecs false ⟨[], []⟩ hrun hknows

end Command

end Hidpin.System.Bus
