import Hidpin.Lib.Run
import Hidpin.System.Bus

/-! Any number of host programs that write the pin configuration of one device with `set_pin_config` and
    `update_pins`, in any order of their feature accesses. -/

namespace Hidpin.Host.PinConfig

/-- Only a GPIO out of range stops `with_pins`. -/
theorem withPins_error {e : Error} : ∀ {settings : List (U8 × PinSetting)} {c : PinConfig},
    c.withPins settings = .error e → ∃ message, e = .invalidArgument message
  | (gpio, setting) :: settings, c, h => by
    rw [withPins] at h
    split at h
    · exact withPins_error h
    · next e' he =>
      cases h
      unfold withPin at he
      split at he
      · cases he
      · cases he
        exact ⟨_, rfl⟩

end Hidpin.Host.PinConfig

namespace Hidpin.System
open Host (World PinConfig PinConfigReport PinSetting Stop reportIdPinConfig)
open Host.Device (Io)
open Lib (Prog)

/-- A call of a program on its device. -/
inductive Call where
  | setPinConfig (config : PinConfig)
  | updatePins (settings : List (U8 × PinSetting))
  deriving DecidableEq

/-- What is left of a call. It is cut into parts with at most one feature access each. -/
inductive Stage where
  | update (settings : List (U8 × PinSetting))
  | start (config : PinConfig)
  | send (config : PinConfig) (available : U32)
  | readBack (config : PinConfig) (requestId : U8)

namespace Call

/-- Where a call begins. -/
def stage : Call → Stage
  | setPinConfig config => .start config
  | updatePins settings => .update settings

end Call

namespace Stage
section Parts
variable {ω : Type} [World ω]

/-- The next part: what is left after it, or what the call returns. -/
def advance : Stage → Io ω (Stage ⊕ PinConfigReport)
  | update settings => do
    let config ← Host.Device.ofExcept ((← Host.Device.getPinConfig).config.withPins settings)
    return .inl (start config)
  | start config => do
    return .inl (send config (← Host.Device.readInfo).available)
  | send config available => do
    let (result, gpio) := Host.validatePinConfig config available
    if result ≠ .ok then throw (.error (.pinConfigRejected result gpio true))
    else
      let requestId ← Host.Device.nextRequestId
      let payload ← Host.Device.ofExcept (Host.encodePinConfigSet config requestId)
      Host.Device.transport (World.sendFeatureReport (reportIdPinConfig :: payload))
      return .inl (readBack config requestId)
  | readBack config requestId => do
    let read ← Host.Device.getPinConfig
    if read.requestId ≠ requestId then throw (.error (.pinConfigConflict requestId read.requestId))
    else if read.result ≠ .ok then
      throw (.error (.pinConfigRejected read.result read.resultGpio false))
    else if read.config ≠ config then throw (.error .pinConfigMismatch)
    else return .inr read

/-- At most `k` parts, one after the other. -/
def complete : ℕ → Stage → Io ω PinConfigReport
  | 0, _ => throw .hangs
  | k + 1, stage => do
    match ← stage.advance with
    | .inl stage => complete k stage
    | .inr read => return read

/-- The parts of a call are the function of the library. -/
theorem complete_start (config : PinConfig) :
    complete 3 (start config) = (Host.Device.setPinConfig config : Io ω PinConfigReport) := by
  simp only [complete, advance, Host.Device.setPinConfig, bind_assoc, pure_bind]
  refine bind_congr fun info => ?_
  split_ifs
  · rfl
  · simp only [bind_assoc, pure_bind]
    refine bind_congr fun id => bind_congr fun payload => bind_congr fun _ => bind_congr fun read => ?_
    split_ifs <;> rfl

theorem complete_update (settings : List (U8 × PinSetting)) :
    complete 4 (update settings) = (Host.Device.updatePins settings : Io ω PinConfigReport) := by
  rw [complete]
  simp only [advance, Host.Device.updatePins, bind_assoc, pure_bind, complete_start]

end Parts

/-- The configuration that `set_pin_config` was called with. -/
def config : Stage → Option PinConfig
  | update _ => none
  | start config | send config _ | readBack config _ => some config

end Stage

/-- A host program: its handle, the call it makes, what is left of it, and how the last one ended. -/
structure Program where
  device : Host.Device
  call : Call
  stage : Option Stage
  result : Option (Except Stop PinConfigReport)

/-- The programs and the device they share. -/
structure Hosts (ι : Type) where
  bus : Bus ι
  programs : ι → Program

/-- A program that makes no call begins one on some handle, or runs the next part of its call, or the
    device does something by itself. -/
inductive Act (ι : Type) where
  | begin (i : ι) (device : Host.Device) (call : Call)
  | turn (i : ι) (nowUs : U64)
  | device (op : Firmware.Op)

namespace Program

/-- The program after a part of its call. -/
def after (p : Program) (r : Except Stop (Stage ⊕ PinConfigReport)) (device : Host.Device) : Program :=
  match r with
  | .ok (.inl stage) => { p with device, stage := some stage }
  | .ok (.inr read) => { p with device, stage := none, result := some (.ok read) }
  | .error e => { p with device, stage := none, result := some (.error e) }

end Program

namespace Hosts
variable {ι : Type} [DecidableEq ι]

/-- Replaces a program. -/
def set (s : Hosts ι) (i : ι) (p : Program) : Hosts ι :=
  { s with programs := Function.update s.programs i p }

@[simp] theorem set_programs_self (s : Hosts ι) (i : ι) (p : Program) : (s.set i p).programs i = p := by
    simp [set]

theorem set_programs_of_ne (s : Hosts ι) {i j : ι} (p : Program) (h : j ≠ i) :
    (s.set i p).programs j = s.programs j := by simp [set, h]

/-- The bus when it is the turn of a program. -/
def busAt (s : Hosts ι) (i : ι) (nowUs : U64) : Bus ι := { s.bus with caller := i, nowUs }

/-- A program begins a call, or makes its next access. -/
def step (s : Hosts ι) : Act ι → Hosts ι
  | .begin i device call => match (s.programs i).stage with
    | none => s.set i ⟨device, call, some call.stage, none⟩
    | some _ => s
  | .turn i nowUs => match (s.programs i).stage with
    | none => s
    | some stage =>
      let (r, device, bus) := stage.advance.exec ((s.programs i).device, s.busAt i nowUs)
      { s with bus }.set i ((s.programs i).after r device)
  | .device op => { s with bus := { s.bus with device := s.bus.device.step op } }

end Hosts

/-! ### One part of a call -/

section Part
variable {ι : Type}

/-- What a part of a call does: what it returns, and the bus after it. -/
inductive Part (w : Bus ι) : Stage → Except Stop (Stage ⊕ PinConfigReport) → Bus ι → Prop where
  | read {settings : List (U8 × PinSetting)} {c config : PinConfig}
      (hread : c.toFirmware = w.features.2.config) (hconfig : c.withPins settings = .ok config) :
      Part w (.update settings) (.ok (.inl (.start config))) (w.accessed (.get reportIdPinConfig))
  | outOfRange {settings : List (U8 × PinSetting)} {message : String} :
      Part w (.update settings) (.error (.error (.invalidArgument message)))
        (w.accessed (.get reportIdPinConfig))
  | known {config : PinConfig} : Part w (.start config) (.ok (.inl (.send config w.features.1.available))) w
  | informed {config : PinConfig} : Part w (.start config) (.ok (.inl (.send config w.features.1.available)))
      (w.accessed (.get Host.reportIdDeviceInfo))
  | invalid {config : PinConfig} {available : U32} {result : Host.ResultCode} {gpio : U8} :
      Part w (.send config available) (.error (.error (.pinConfigRejected result gpio true))) w
  | hangs {config : PinConfig} {available : U32} : Part w (.send config available) (.error .hangs) w
  | sent {config : PinConfig} {available : U32} {requestId : U8}
      (hvalid : config.toFirmware.Valid available) :
      Part w (.send config available) (.ok (.inl (.readBack config requestId)))
        (w.written (PinConfigReport.encode ⟨.ok, Host.resultGpioNone, requestId, config⟩))
  | conflict {config : PinConfig} {requestId : U8} (hid : w.features.2.requestId ≠ requestId) :
      Part w (.readBack config requestId)
        (.error (.error (.pinConfigConflict requestId w.features.2.requestId)))
        (w.accessed (.get reportIdPinConfig))
  | rejected {config : PinConfig} {requestId : U8} (hresult : w.features.2.result ≠ Firmware.resultOk) :
      Part w (.readBack config requestId)
        (.error (.error (.pinConfigRejected ⟨w.features.2.result⟩ w.features.2.resultGpio false)))
        (w.accessed (.get reportIdPinConfig))
  | mismatch {config : PinConfig} {requestId : U8} (hconfig : w.features.2.config ≠ config.toFirmware) :
      Part w (.readBack config requestId) (.error (.error .pinConfigMismatch))
        (w.accessed (.get reportIdPinConfig))
  | applied {config : PinConfig} {requestId : U8} {read : PinConfigReport} (hread : read.config = config)
      (hconfig : w.features.2.config = config.toFirmware) :
      Part w (.readBack config requestId) (.ok (.inr read)) (w.accessed (.get reportIdPinConfig))

/-- Every part does one of these, and the handle knows the device as well as before. -/
theorem wp_advance (stage : Stage) {d : Host.Device} {w : Bus ι} (hvalid : w.Valid) (hknows : w.Knows d)
    (havailable : ∀ config available, stage = .send config available → available = w.features.1.available) :
    stage.advance.wp (fun r s => Part w stage r s.2 ∧ w.Knows s.1) (d, w) := by
  cases stage with
  | update settings =>
    rw [Stage.advance, Prog.wp_bind]
    refine Bus.wp_getPinConfig hvalid fun c hc => ?_
    rw [Prog.post_ok]
    dsimp only
    rcases hconfig : c.withPins settings with e | config
    · obtain ⟨message, rfl⟩ := Host.PinConfig.withPins_error hconfig
      exact ⟨.outOfRange, hknows⟩
    · exact ⟨.read hc hconfig, hknows⟩
  | start config =>
    rw [Stage.advance, Prog.wp_bind]
    refine Bus.wp_readInfo hknows fun info d' w' hinfo hd' hw' => ?_
    rw [Prog.post_ok, hinfo]
    rcases hw' with rfl | rfl
    · exact ⟨.known, hd'⟩
    · exact ⟨.informed, hd'⟩
  | send config available =>
    obtain rfl := havailable config available rfl
    rw [Stage.advance]
    dsimp only
    split
    · exact ⟨.invalid, hknows⟩
    · next hok =>
      rw [Prog.wp_bind]
      refine Host.Device.wp_nextRequestId (fun id ids hid => ?_) ⟨.hangs, hknows⟩
      rw [Prog.post_ok, Host.encodePinConfigSet, if_neg hid]
      exact ⟨.sent (Host.validatePinConfig_ok.mp (not_not.mp hok)), hknows⟩
  | readBack config requestId =>
    rw [Stage.advance, Prog.wp_bind]
    refine Bus.wp_getPinConfig hvalid fun c hc => ?_
    rw [Prog.post_ok]
    dsimp only
    split_ifs with hid hresult hconfig
    · exact ⟨.conflict hid, hknows⟩
    · exact ⟨.rejected fun h => hresult (congrArg Host.ResultCode.mk h), hknows⟩
    · exact ⟨.mismatch fun h => hconfig (Host.PinConfig.toFirmware_injective (hc.trans h)), hknows⟩
    · exact ⟨.applied (not_not.mp hconfig) (hc.symm.trans (congrArg _ (not_not.mp hconfig))), hknows⟩

/-- The Sets among some accesses. -/
def setsOf (accesses : List (ι × Access)) : List (ι × List U8) :=
  accesses.filterMap fun x => match x.2 with
    | .get _ => none
    | .set payload => some (x.1, payload)

/-- The payload of a Set of the library. -/
def payloadOf (config : PinConfig) (requestId : U8) : List U8 :=
  PinConfigReport.encode ⟨.ok, Host.resultGpioNone, requestId, config⟩

namespace Part
variable {w w' : Bus ι} {stage : Stage} {r : Except Stop (Stage ⊕ PinConfigReport)}

/-- The accesses of a part are those of the program. -/
theorem accesses (h : Part w stage r w') :
    ∃ new, w'.accesses = w.accesses ++ new ∧ ∀ x ∈ new, x.1 = w.caller := by
  have hone : ∀ a : Access, ∀ x ∈ [(w.caller, a)], x.1 = w.caller := by simp
  cases h with
  | known | invalid | hangs => exact ⟨[], (List.append_nil _).symm, by simp⟩
  | sent => exact ⟨_, rfl, hone _⟩
  | _ => exact ⟨_, rfl, hone _⟩

/-- A part reads, or it sends a Set of a valid configuration. -/
theorem reads_or_sent (h : Part w stage r w') :
    (w'.features = w.features ∧ setsOf w'.accesses = setsOf w.accesses) ∨
    ∃ config available requestId, stage = .send config available ∧ config.toFirmware.Valid available ∧
      r = .ok (.inl (.readBack config requestId)) ∧ w' = w.written (payloadOf config requestId) := by
  have hget : ∀ reportId, (w.accessed (.get reportId)).features = w.features ∧
      setsOf (w.accessed (.get reportId)).accesses = setsOf w.accesses :=
    fun reportId => ⟨rfl, by simp [setsOf, Bus.accessed]⟩
  cases h with
  | known | invalid | hangs => exact Or.inl ⟨rfl, rfl⟩
  | sent hvalid => exact Or.inr ⟨_, _, _, rfl, hvalid, rfl, rfl⟩
  | _ => exact Or.inl (hget _)

end Part

end Part

/-! ### Every run -/

section Run
variable {ι : Type} {info : Firmware.DeviceInfo}

/-- The last access of the program was this Set, and these came after it. -/
def LastOf (accesses : List (ι × Access)) (i : ι) (payload : List U8) (later : List (ι × Access)) : Prop :=
  ∃ past, accesses = past ++ (i, .set payload) :: later ∧ ∀ x ∈ later, x.1 ≠ i

/-- A program that waits for its read-back made its Set with its last access. -/
structure Program.Fits (info : Firmware.DeviceInfo) (accesses : List (ι × Access)) (i : ι) (p : Program) :
    Prop where
  knows : ∀ known, p.device.info = some known → known.available = info.available
  available : ∀ config available, p.stage = some (.send config available) → available = info.available
  own : ∀ config requestId, p.stage = some (.readBack config requestId) →
    ∃ later, LastOf accesses i (payloadOf config requestId) later
  config : ∀ config stage, p.call = .setPinConfig config → p.stage = some stage → stage.config = some config

/-- The device has a valid configuration, and the Set it took last is the one it reports. -/
structure Bus.Law (info : Firmware.DeviceInfo) (w : Bus ι) : Prop where
  board : w.features.1 = info
  valid : w.Valid
  latest : ∀ x, (setsOf w.accesses).getLast? = some x →
    ∃ config requestId, x.2 = payloadOf config requestId ∧
      w.features.2 = ⟨Firmware.resultOk, Firmware.resultGpioNone, requestId, config.toFirmware⟩

/-- What holds of the programs and the device they share. -/
structure Hosts.Law (info : Firmware.DeviceInfo) (s : Hosts ι) : Prop where
  bus : s.bus.Law info
  fits : ∀ i, (s.programs i).Fits info s.bus.accesses i

/-- The handles are handles of this device, and only the programs write its configuration. -/
def Act.Allowed (info : Firmware.DeviceInfo) : Act ι → Prop
  | .begin _ d _ => ∀ known, d.info = some known → known.available = info.available
  | .turn _ _ => True
  | .device op => ∀ payload nowUs, op ≠ .setPinConfig payload nowUs

theorem LastOf.append {accesses later new : List (ι × Access)} {i : ι} {payload : List U8}
    (h : LastOf accesses i payload later) (hnew : ∀ x ∈ new, x.1 ≠ i) :
    LastOf (accesses ++ new) i payload (later ++ new) := by
  obtain ⟨past, rfl, hlater⟩ := h
  refine ⟨past, by simp, fun x hx => ?_⟩
  rcases List.mem_append.mp hx with hx | hx
  · exact hlater x hx
  · exact hnew x hx

/-- The accesses of the others change nothing for a program. -/
theorem Program.Fits.append {accesses new : List (ι × Access)} {i : ι} {p : Program}
    (h : p.Fits info accesses i) (hnew : ∀ x ∈ new, x.1 ≠ i) : p.Fits info (accesses ++ new) i where
  knows := h.knows
  available := h.available
  own config requestId hstage := by
    obtain ⟨later, hlater⟩ := h.own config requestId hstage
    exact ⟨later ++ new, hlater.append hnew⟩
  config := h.config

/-- A program without a call. -/
theorem Program.Fits.of_none {accesses : List (ι × Access)} {i : ι} {p : Program} (hstage : p.stage = none)
    (hknows : ∀ known, p.device.info = some known → known.available = info.available) :
    p.Fits info accesses i where
  knows := hknows
  available config available h := by rw [hstage] at h; cases h
  own config requestId h := by rw [hstage] at h; cases h
  config config stage _ h := by rw [hstage] at h; cases h

namespace Bus.Law
variable {w w' : Bus ι}

theorem of_reads (h : w.Law info) (hf : w'.features = w.features)
    (hsets : setsOf w'.accesses = setsOf w.accesses) : w'.Law info where
  board := by rw [hf]; exact h.board
  valid := by rw [Bus.Valid, hf]; exact h.valid
  latest x hx := by rw [hf]; exact h.latest x (hsets ▸ hx)

theorem written (h : w.Law info) {config : PinConfig} {requestId : U8}
    (hvalid : config.toFirmware.Valid info.available) :
    (w.written (payloadOf config requestId)).Law info := by
  have hf := Bus.features_written (w := w) (r := ⟨.ok, Host.resultGpioNone, requestId, config⟩)
    (h.board.symm ▸ hvalid)
  refine ⟨(congrArg Prod.fst hf).trans h.board, ?_, fun x hx =>
    ⟨config, requestId, ?_, congrArg Prod.snd hf⟩⟩
  · rw [Bus.Valid, payloadOf, hf, h.board]
    exact hvalid
  · have hsets : setsOf (w.written (payloadOf config requestId)).accesses =
        setsOf w.accesses ++ [(w.caller, payloadOf config requestId)] := by
      simp [setsOf, Bus.written, Bus.accessed]
    rw [hsets, List.getLast?_concat] at hx
    rw [← Option.some.inj hx]

end Bus.Law

namespace Hosts
variable [DecidableEq ι] {s : Hosts ι}

/-- A turn in the middle of a call runs one part of it. -/
theorem turn_cases (h : s.Law info) {i : ι} {stage : Stage} (hstage : (s.programs i).stage = some stage)
    (nowUs : U64) :
    ∃ r d w, Part (s.busAt i nowUs) stage r w ∧
      (∀ known, d.info = some known → known.available = info.available) ∧
      s.step (.turn i nowUs) = { s with bus := w }.set i ((s.programs i).after r d) := by
  have hboard : (s.busAt i nowUs).features.1 = info := h.bus.board
  have hknows : (s.busAt i nowUs).Knows (s.programs i).device := fun known hknown => by
    rw [hboard, (h.fits i).knows known hknown]
  have hpart := wp_advance stage (w := s.busAt i nowUs) h.bus.valid hknows fun config available hsend => by
    rw [hboard, (h.fits i).available config available (hsend ▸ hstage)]
  rcases hexec : stage.advance.exec ((s.programs i).device, s.busAt i nowUs) with ⟨r, d, w⟩
  rw [Prog.wp_of_exec hexec] at hpart
  refine ⟨r, d, w, hpart.1, fun known hknown => ?_, ?_⟩
  · rw [hpart.2 known hknown, hboard]
  · rw [step, hstage]
    simp only [hexec]

omit [DecidableEq ι] in
/-- The program after a part of its call. -/
theorem fits_after (h : s.Law info) {i : ι} {stage : Stage} (hstage : (s.programs i).stage = some stage)
    {nowUs : U64} {r : Except Stop (Stage ⊕ PinConfigReport)} {d : Host.Device} {w : Bus ι}
    (hpart : Part (s.busAt i nowUs) stage r w)
    (hknows : ∀ known, d.info = some known → known.available = info.available) :
    ((s.programs i).after r d).Fits info w.accesses i := by
  have hconfig : ∀ config, (s.programs i).call = .setPinConfig config → stage.config = some config :=
    fun config hcall => (h.fits i).config config stage hcall hstage
  have hboard : (s.busAt i nowUs).features.1 = info := h.bus.board
  cases hpart with
  | read =>
    refine ⟨hknows, (fun _ _ heq => by cases heq), (fun _ _ heq => by cases heq), fun config _ hcall _ => ?_⟩
    cases hconfig config hcall
  | known | informed =>
    refine ⟨hknows, fun config available heq => ?_, (fun _ _ heq => by cases heq),
      fun config _ hcall heq => ?_⟩
    · cases heq
      rw [hboard]
    · cases heq
      exact hconfig config hcall
  | sent =>
    refine ⟨hknows, (fun _ _ heq => by cases heq), fun config requestId heq => ?_,
      fun config _ hcall heq => ?_⟩
    · cases heq
      exact ⟨[], s.bus.accesses, rfl, by simp⟩
    · cases heq
      exact hconfig config hcall
  | _ => exact .of_none rfl hknows

/-- A part of a call keeps the law. -/
theorem law_after (h : s.Law info) {i : ι} {stage : Stage} (hstage : (s.programs i).stage = some stage)
    {nowUs : U64} {r : Except Stop (Stage ⊕ PinConfigReport)} {d : Host.Device} {w : Bus ι}
    (hpart : Part (s.busAt i nowUs) stage r w)
    (hknows : ∀ known, d.info = some known → known.available = info.available) :
    ({ s with bus := w }.set i ((s.programs i).after r d)).Law info := by
  have hbus : (s.busAt i nowUs).Law info := h.bus.of_reads rfl rfl
  constructor
  · rcases hpart.reads_or_sent with ⟨hf, hsets⟩ | ⟨config, available, requestId, rfl, hvalid, rfl, rfl⟩
    · exact hbus.of_reads hf hsets
    · rw [(h.fits i).available config available hstage] at hvalid
      exact hbus.written hvalid
  · intro j
    rcases eq_or_ne j i with rfl | hj
    · rw [set_programs_self]
      exact fits_after h hstage hpart hknows
    · obtain ⟨new, haccesses, hnew⟩ := hpart.accesses
      have hnot : ∀ x ∈ new, x.1 ≠ j := fun x hx => by rw [hnew x hx]; exact hj.symm
      have hothers := (h.fits j).append hnot
      rw [set_programs_of_ne _ _ hj]
      rw [← show w.accesses = s.bus.accesses ++ new from haccesses] at hothers
      exact hothers

/-- Every step keeps the law. -/
theorem law_step (s : Hosts ι) (a : Act ι) (h : s.Law info) (ha : a.Allowed info) : (s.step a).Law info := by
  cases a with
  | begin i d call =>
    rw [step]
    split
    · refine ⟨h.bus, fun j => ?_⟩
      rcases eq_or_ne j i with rfl | hj
      · rw [set_programs_self]
        refine ⟨ha, fun _ _ heq => ?_, fun _ _ heq => ?_, fun config _ hcall heq => ?_⟩
        · cases call <;> cases heq
        · cases call <;> cases heq
        · cases heq
          cases hcall
          rfl
      · rw [set_programs_of_ne _ _ hj]
        exact h.fits j
    · exact h
  | turn i nowUs =>
    rcases hstage : (s.programs i).stage with _ | stage
    · rw [step, hstage]
      exact h
    · obtain ⟨r, d, w, hpart, hknows, heq⟩ := turn_cases h hstage nowUs
      rw [heq]
      exact law_after h hstage hpart hknows
  | device op => exact ⟨h.bus.of_reads (Firmware.Device.features_step _ ha) rfl, h.fits⟩

/-- Another program made a Set since this one of the program. -/
def Overtaken (accesses : List (ι × Access)) (i : ι) (payload : List U8) : Prop :=
  ∃ later, LastOf accesses i payload later ∧ ∃ x ∈ setsOf later, x.1 ≠ i

omit [DecidableEq ι] in
theorem payloadOf_injective {c c' : PinConfig} {id id' : U8} (h : payloadOf c id = payloadOf c' id') :
    c = c' ∧ id = id' := by
  have hreport := (PinConfigReport.decode_encode _).symm.trans ((congrArg Host.decodePinConfig h).trans
    (PinConfigReport.decode_encode _))
  cases hreport
  exact ⟨rfl, rfl⟩

omit [DecidableEq ι] in
/-- A program that waits for its read-back: the last Set was accepted, and it was its own or it was
    overtaken. -/
theorem own_or_overtaken (h : s.Law info) {i : ι} {config : PinConfig} {requestId : U8}
    (hstage : (s.programs i).stage = some (.readBack config requestId)) :
    s.bus.features.2.result = Firmware.resultOk ∧
      (s.bus.features.2 = ⟨Firmware.resultOk, Firmware.resultGpioNone, requestId, config.toFirmware⟩ ∨
        Overtaken s.bus.accesses i (payloadOf config requestId)) := by
  obtain ⟨later, past, haccesses, hlater⟩ := (h.fits i).own config requestId hstage
  have hsets : setsOf s.bus.accesses = setsOf past ++ (i, payloadOf config requestId) :: setsOf later := by
    rw [haccesses]
    simp [setsOf]
  rcases hnone : setsOf later with _ | ⟨x, rest⟩
  · obtain ⟨c, id, hpayload, hfeatures⟩ := h.bus.latest (i, payloadOf config requestId)
      (by rw [hsets, hnone, List.getLast?_concat])
    obtain ⟨rfl, rfl⟩ := payloadOf_injective hpayload
    exact ⟨congrArg Firmware.PinConfigReport.result hfeatures, Or.inl hfeatures⟩
  · obtain ⟨y, hy⟩ : ∃ y, (setsOf s.bus.accesses).getLast? = some y := by
      rw [hsets]
      exact Option.isSome_iff_exists.mp (by simp)
    obtain ⟨c, id, -, hfeatures⟩ := h.bus.latest y hy
    refine ⟨congrArg Firmware.PinConfigReport.result hfeatures,
      Or.inr ⟨later, ⟨past, haccesses, hlater⟩, x, ?_, ?_⟩⟩
    · rw [hnone]
      exact List.mem_cons_self
    · have hmem : x ∈ setsOf later := by
        rw [hnone]
        exact List.mem_cons_self
      obtain ⟨y, hy, hx⟩ := List.mem_filterMap.mp hmem
      have hsame : x.1 = y.1 := by
        split at hx
        · cases hx
        · rw [← Option.some.inj hx]
      rw [hsame]
      exact hlater y hy

/-- No program makes a call yet. -/
def start (device : Firmware.Device) (i : ι) : Hosts ι where
  bus := ⟨device, i, 0, []⟩
  programs _ := ⟨.new "" 0 0, .updatePins [], none, none⟩

omit [DecidableEq ι] in
theorem law_start (info : Firmware.DeviceInfo) (startUs : U64) (ops : List Firmware.Op) (i : ι) :
    (start (Lib.run Firmware.Device.step (.start info startUs) ops) i).Law info := by
  have hboard := Firmware.Device.info_run info startUs ops
  exact ⟨⟨hboard, (Firmware.Device.inv_run info startUs ops).valid, fun x hx => by cases hx⟩,
    fun j => .of_none rfl fun known hknown => by cases hknown⟩

theorem law_run {s : Hosts ι} (h : s.Law info) {acts : List (Act ι)} (hacts : ∀ a ∈ acts, a.Allowed info) :
    (Lib.run step s acts).Law info :=
  Lib.run_of_forall law_step acts h hacts

/-- How a call ends is true, whatever the other programs do: on success the configuration is the one in
    force at the read-back; after a conflict or a mismatch another program made a Set in between; and the
    device never rejects what the library sends. -/
theorem outcome_truthful (info : Firmware.DeviceInfo) (startUs : U64) (ops : List Firmware.Op) (first : ι)
    (acts : List (Act ι)) (hacts : ∀ a ∈ acts, a.Allowed info) (i : ι) (nowUs : U64) (stage : Stage)
    (r : Except Stop PinConfigReport) :
    let s := Lib.run step (start (Lib.run Firmware.Device.step (.start info startUs) ops) first) acts
    let p := (s.step (.turn i nowUs)).programs i
    (s.programs i).stage = some stage → p.stage = none → p.result = some r →
      (∀ read, r = .ok read → ∃ config requestId, stage = .readBack config requestId ∧ read.config = config ∧
        s.bus.device.engine.config = config.toFirmware ∧
        ∀ c, (s.programs i).call = .setPinConfig c → config = c) ∧
      ((∃ expected seen, r = .error (.error (.pinConfigConflict expected seen))) ∨
        r = .error (.error .pinConfigMismatch) →
        ∃ config requestId, stage = .readBack config requestId ∧
          Overtaken s.bus.accesses i (payloadOf config requestId)) ∧
      ∀ result gpio, r ≠ .error (.error (.pinConfigRejected result gpio false)) := by
  intro s p hstage hended hresult
  have h : s.Law info := law_run (law_start info startUs ops first) hacts
  obtain ⟨r', d, w, hpart, -, heq⟩ := turn_cases h hstage nowUs
  have hp : p = (s.programs i).after r' d := by
    show (s.step (.turn i nowUs)).programs i = _
    rw [heq, set_programs_self]
  rw [hp] at hended hresult
  cases hpart with
  | read | known | informed | sent => cases hended
  | outOfRange | invalid | hangs =>
    cases hresult
    refine ⟨nofun, ?_, nofun⟩
    rintro (⟨_, _, heq⟩ | heq) <;> cases heq
  | conflict hid =>
    cases hresult
    rcases (own_or_overtaken h hstage).2 with hown | hover
    · exact absurd (congrArg Firmware.PinConfigReport.requestId hown) hid
    · exact ⟨nofun, fun _ => ⟨_, _, rfl, hover⟩, nofun⟩
  | rejected hrejected => exact absurd (own_or_overtaken h hstage).1 hrejected
  | mismatch hconfig =>
    cases hresult
    rcases (own_or_overtaken h hstage).2 with hown | hover
    · exact absurd (congrArg Firmware.PinConfigReport.config hown) hconfig
    · exact ⟨nofun, fun _ => ⟨_, _, rfl, hover⟩, nofun⟩
  | applied hread hconfig =>
    cases hresult
    refine ⟨fun read heq => ?_, ?_, nofun⟩
    · cases heq
      refine ⟨_, _, rfl, hread, hconfig, fun c hcall => ?_⟩
      cases (h.fits i).config c _ hcall hstage
      rfl
    · rintro (⟨_, _, heq⟩ | heq) <;> cases heq

/-- Two programs write GPIO3 at the same time. -/
def rivalActs : List (Act Bool) :=
  [.begin false (.new "E6614103E7" 1 2) (.setPinConfig fun n => if n.val = 3 then ⟨.output, 1⟩ else .unused),
    .begin true (.new "E6614103E7" 7 3) (.setPinConfig fun n => if n.val = 3 then ⟨.input, 20⟩ else .unused),
    .turn false 0, .turn false 10, .turn true 20, .turn true 30]

def rivals : Hosts Bool :=
  Lib.run step (start (Lib.run Firmware.Device.step (.start (Firmware.Device.sampleInfo 0x3FFFFFFF) 0) [])
    false) rivalActs

/-- The call ended with a conflict. -/
def conflicted {α : Type} : Except Stop α → Bool
  | .error (.error (.pinConfigConflict _ _)) => true
  | _ => false

/-- The call of the first program ends with a conflict, and that of the second succeeds. -/
theorem outcome_truthful_sample :
    (∃ config requestId, Overtaken rivals.bus.accesses false (payloadOf config requestId)) ∧
    rivals.bus.device.engine.config =
      PinConfig.toFirmware (Function.update PinConfig.unused 3 ⟨.input, 20⟩) := by
  have hallowed : ∀ a ∈ rivalActs, a.Allowed (Firmware.Device.sampleInfo 0x3FFFFFFF) := by
    simp [rivalActs, Act.Allowed, Host.Device.new]
  have hends : ∀ i, (rivals.programs i).stage.isSome = true ∧
      ((rivals.step (.turn i 40)).programs i).stage.isNone = true := by decide +kernel
  have htrue : ((rivals.step (.turn true 40)).programs true).result.any (fun r => r.isOk) = true := by
    decide +kernel
  have hfalse : ((rivals.step (.turn false 40)).programs false).result.any conflicted = true := by
    decide +kernel
  have hcall : (rivals.programs true).call =
      .setPinConfig fun n => if n.val = 3 then ⟨.input, 20⟩ else .unused := by
    decide +kernel
  have hinput : (fun n : Host.Gpio => if n.val = 3 then (⟨.input, 20⟩ : Host.PinSetting) else .unused) =
      Function.update PinConfig.unused 3 ⟨.input, 20⟩ := by decide +kernel
  have houtcome := fun i => outcome_truthful (Firmware.Device.sampleInfo 0x3FFFFFFF) 0 [] false
    rivalActs hallowed i 40
  unfold rivals at hends htrue hfalse hcall ⊢
  constructor
  · obtain ⟨stage, hstage⟩ := Option.isSome_iff_exists.mp (hends false).1
    obtain ⟨r, hr, hconflict⟩ := (Option.any_eq_true _ _).mp hfalse
    have hended := Option.isNone_iff_eq_none.mp (hends false).2
    obtain ⟨config, requestId, -, hover⟩ := (houtcome false stage r hstage hended hr).2.1 (by
      unfold conflicted at hconflict
      split at hconflict
      · exact Or.inl ⟨_, _, rfl⟩
      · cases hconflict)
    exact ⟨config, requestId, hover⟩
  · obtain ⟨stage, hstage⟩ := Option.isSome_iff_exists.mp (hends true).1
    obtain ⟨r, hr, hok⟩ := (Option.any_eq_true _ _).mp htrue
    have hended := Option.isNone_iff_eq_none.mp (hends true).2
    rcases r with e | read
    · cases hok
    · obtain ⟨config, requestId, -, -, hconfig, hsame⟩ := (houtcome true stage _ hstage hended hr).1 read rfl
      rw [← hinput, ← hsame _ hcall]
      exact hconfig

end Hosts

end Run

end Hidpin.System
