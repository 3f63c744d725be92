import Hidpin.Host.Watcher
import Hidpin.System.Hosts

/-! A device between a watcher and other programs. Before every feature access of the watcher the others,
    and the device by itself, may do anything; the access is atomic, and it fails or it does what the
    firmware does. Everything else is an arbitrary world. -/

namespace Hidpin.System
open Host (Error OsError World PinConfig PinConfigReport DeviceInfo Stop reportIdDeviceInfo
  reportIdPinConfig)
open Host.Device (Io)
open Lib (Prog)

/-- What may happen to the device between two accesses of the watcher. -/
inductive Move where
  | op (op : Firmware.Op)
  | restart (info : Firmware.DeviceInfo) (startUs : U64)

/-- What a move does to the device. -/
def Move.apply (d : Firmware.Device) : Move → Firmware.Device
  | .op o => d.step o
  | .restart i t => .start i t

/-- The configuration is written, or lost. -/
def Move.Writes : Move → Prop
  | .op (.setPinConfig _ _) => True
  | .op _ => False
  | .restart _ _ => True

theorem Move.config_apply {m : Move} (h : ¬ m.Writes) (d : Firmware.Device) :
    (m.apply d).engine.config = d.engine.config := by
  cases m with
  | op o =>
    have hop : ∀ payload nowUs, o ≠ .setPinConfig payload nowUs := by
      rintro payload nowUs rfl
      exact h trivial
    exact congrArg (fun f => f.2.config) (d.features_step hop)
  | restart i t => exact (h trivial).elim

/-- A Set of the watcher: the configuration when the watcher had read it last, how often it had read it
    since it opened the device, and the hardware calls that the Set led to. -/
structure Write where
  read : Firmware.PinConfig
  reads : ℕ
  payload : List U8
  calls : List Firmware.HwCall

/-- `script` are the moves before each access, with the device time then. `sent` is a Set that the watcher
    did not read back yet, and `writes` are those whose read-back confirmed them. -/
structure Wire (ω : Type) where
  world : ω
  device : Firmware.Device
  script : List (List Move × U64)
  read : Firmware.PinConfig
  reads : ℕ
  sent : Option Write
  writes : List Write

/-- A Set with this payload and what was read before it; the pins it drives are outputs there. -/
structure Write.Sets (x : Write) (payload : List U8) (read : Firmware.PinConfig) (reads : ℕ) : Prop where
  read : x.read = read
  reads : x.reads = reads
  payload : x.payload = payload
  calls : ∀ n level, .setOutput n level ∈ x.calls →
    (Firmware.payloadConfig x.payload).mode n = Firmware.modeOutput

/-- The engine shows that this was the last Set and that it was applied. -/
def Write.confirmedBy (s : Write) (e : Firmware.Engine) : Bool :=
  decide (e.requestId = Host.byteAt s.payload 2 ∧ e.result = Firmware.resultOk ∧
    e.config = Firmware.payloadConfig s.payload)

/-- A Set of the library is confirmed when the read-back shows its request id, the result and the
    configuration. -/
theorem Write.Sets.confirmedBy_iff {x : Write} {config c : PinConfig} {requestId : U8}
    {read : Firmware.PinConfig} {reads : ℕ} {e : Firmware.Engine}
    (h : x.Sets (payloadOf config requestId) read reads) (hc : c.toFirmware = e.config) :
    x.confirmedBy e = true ↔
      e.requestId = requestId ∧ (⟨e.result⟩ : Host.ResultCode) = .ok ∧ c = config := by
  have hid : Host.byteAt (payloadOf config requestId) 2 = requestId := rfl
  have hresult : (⟨e.result⟩ : Host.ResultCode) = .ok ↔ e.result = Firmware.resultOk :=
    ⟨fun h => congrArg Host.ResultCode.code h, fun h => congrArg Host.ResultCode.mk h⟩
  rw [confirmedBy, decide_eq_true_iff, h.payload, hid, payloadOf, PinConfigReport.payloadConfig_encode,
    hresult, ← hc, PinConfig.toFirmware_inj]

namespace Wire
variable {ω : Type}

/-- The device after the next moves. -/
def moved (w : Wire ω) : Wire ω :=
  { w with device := (w.script.headD ([], 0)).1.foldl Move.apply w.device, script := w.script.tail }

/-- An access that failed. -/
def failed (w : Wire ω) (world : ω) : Wire ω := { w.moved with world, sent := none }

/-- A read of the configuration. -/
def readBack (w : Wire ω) : Wire ω :=
  { w with
    read := w.device.engine.config
    reads := w.reads + 1
    sent := none
    writes := w.writes ++ (w.sent.filter fun s => s.confirmedBy w.device.engine).toList }

/-- A Set that reached the device. -/
def written (w : Wire ω) (report : List U8) (nowUs : U64) : Wire ω :=
  let device := w.device.setFeature (Host.byteAt report 0) report.tail nowUs
  { w with
    device
    sent := some
      { read := w.read
        reads := w.reads
        payload := report.tail
        calls := device.engine.hw.drop w.device.engine.hw.length } }

/-- A call that leaves the device alone. -/
def pass {α : Type} (f : ω → α × ω) (w : Wire ω) : α × Wire ω :=
  ((f w.world).1, { w with world := (f w.world).2 })

instance [World ω] : World (Wire ω) where
  devices := pass World.devices
  openDevice entry w :=
    ((World.openDevice entry w.world).1,
      { w with world := (World.openDevice entry w.world).2, reads := 0, sent := none })
  read timeout := pass (World.read timeout)
  write report := pass (World.write report)
  getFeatureReport reportId w :=
    let r := World.getFeatureReport reportId w.world
    match r.1, w.moved.device.engine.getFeature reportId with
    | .error e, _ => (.error e, w.failed r.2)
    | .ok _, none => (.error Bus.stalled, w.failed r.2)
    | .ok _, some payload =>
      (.ok (reportId :: payload),
        { (if reportId = reportIdPinConfig then w.moved.readBack else w.moved) with world := r.2 })
  sendFeatureReport report w :=
    let r := World.sendFeatureReport report w.world
    match r.1 with
    | .error e => (.error e, w.failed r.2)
    | .ok () => (.ok (), { w.moved.written report (w.script.headD ([], 0)).2 with world := r.2 })
  getInputReport reportId := pass (World.getInputReport reportId)
  instant := pass World.instant
  systemTime := pass World.systemTime
  seed := pass World.seed

/-- A device that was just started, and a watcher that did not access it yet. -/
def start (world : ω) (info : Firmware.DeviceInfo) (startUs : U64) (script : List (List Move × U64)) :
    Wire ω where
  world
  device := .start info startUs
  script
  read := Firmware.blankConfig
  reads := 0
  sent := none
  writes := []

theorem inv_moved {w : Wire ω} (h : w.device.Inv) : w.moved.device.Inv := by
  have hmove : ∀ (d : Firmware.Device) (m : Move), d.Inv → (m.apply d).Inv := fun d m hd => by
    cases m with
    | op o => exact d.step_inv o hd
    | restart i t => exact Firmware.Engine.inv_init i t
  rw [moved]
  generalize (w.script.headD ([], 0)).1 = moves
  exact Lib.run_preserves hmove moves h

/-! ### What the calls of the library do on the wire -/

/-- Nothing is under way, these are the writes so far, and this was read, this often. -/
structure Settled (writes : List Write) (read : Firmware.PinConfig) (reads : ℕ) (w : Wire ω) : Prop where
  device : w.device.Inv
  sent : w.sent = none
  writes : w.writes = writes
  read : w.read = read
  reads : w.reads = reads

/-- The same with a Set that was not read back yet. -/
structure Sent (x : Write) (writes : List Write) (read : Firmware.PinConfig) (reads : ℕ) (w : Wire ω) :
    Prop where
  device : w.device.Inv
  sent : w.sent = some x
  writes : w.writes = writes
  read : w.read = read
  reads : w.reads = reads

variable {writes : List Write} {read : Firmware.PinConfig} {reads : ℕ} {w : Wire ω} {d : Host.Device}
  {α : Type} {x : Write}

namespace Settled

theorem world (h : w.Settled writes read reads) (world : ω) : { w with world }.Settled writes read reads :=
  ⟨h.device, h.sent, h.writes, h.read, h.reads⟩

theorem moved (h : w.Settled writes read reads) : w.moved.Settled writes read reads :=
  ⟨inv_moved h.device, h.sent, h.writes, h.read, h.reads⟩

theorem failed (h : w.Settled writes read reads) (world : ω) : (w.failed world).Settled writes read reads :=
  ⟨inv_moved h.device, rfl, h.writes, h.read, h.reads⟩

/-- Without a Set before it, a read confirms nothing. -/
theorem readBack (h : w.Settled writes read reads) :
    w.readBack.Settled writes w.device.engine.config (reads + 1) where
  device := h.device
  sent := rfl
  writes := by
    rw [Wire.readBack, h.sent]
    exact (List.append_nil _).trans h.writes
  read := rfl
  reads := congrArg (· + 1) h.reads

end Settled

namespace Sent

theorem world (h : w.Sent x writes read reads) (world : ω) : { w with world }.Sent x writes read reads :=
  ⟨h.device, h.sent, h.writes, h.read, h.reads⟩

theorem failed (h : w.Sent x writes read reads) (world : ω) : (w.failed world).Settled writes read reads :=
  ⟨inv_moved h.device, rfl, h.writes, h.read, h.reads⟩

/-- A read shows whether the Set was the last one and was applied. -/
theorem readBack (h : w.Sent x writes read reads) :
    w.moved.readBack.Settled
      (if x.confirmedBy w.moved.device.engine then writes ++ [x] else writes)
      w.moved.device.engine.config (reads + 1) where
  device := inv_moved h.device
  sent := rfl
  writes := by
    have hwrites : w.moved.readBack.writes = w.writes ++
        (w.sent.filter fun s => s.confirmedBy w.moved.device.engine).toList :=
      rfl
    rw [hwrites, h.writes, h.sent, Option.filter_some]
    split
    · rfl
    · exact List.append_nil _
  read := rfl
  reads := congrArg (· + 1) h.reads

end Sent

theorem Settled.written (h : w.Settled writes read reads) (payload : List U8) (nowUs : U64) :
    ∃ x, (w.written (reportIdPinConfig :: payload) nowUs).Sent x writes read reads ∧
      x.Sets payload read reads :=
  ⟨_, ⟨w.device.step_inv (.setPinConfig payload nowUs) h.device, rfl, h.writes, h.read, h.reads⟩,
    h.read, h.reads, rfl, fun _ _ hcall => (Firmware.Engine.entry_of_setOutput hcall).1⟩

/-- A program on the device that neither reads nor writes the configuration. -/
def Quiet (m : Io (Wire ω) α) : Prop :=
  ∀ writes read reads, Prog.Keeps (fun s => s.2.Settled writes read reads) m

namespace Quiet

theorem pure (a : α) : Quiet (Pure.pure a : Io (Wire ω) α) := fun _ _ _ => Prog.Keeps.pure a

theorem throw (e : Stop) : Quiet (MonadExcept.throw e : Io (Wire ω) α) := fun _ _ _ => Prog.Keeps.throw e

theorem bind {β : Type} {m : Io (Wire ω) α} {f : α → Io (Wire ω) β} (hm : Quiet m) (hf : ∀ a, Quiet (f a)) :
    Quiet (m >>= f) := fun writes read reads => Prog.Keeps.bind (hm writes read reads) fun a => hf a
    writes read reads

theorem gets (f : Host.Device × Wire ω → α) : Quiet (Prog.gets f : Io (Wire ω) α) :=
  fun _ _ _ => Prog.Keeps.gets f

theorem set (f : Host.Device → Host.Device) : Quiet (Host.Device.set f : Io (Wire ω) Unit) :=
  fun _ _ _ => Prog.Keeps.update fun _ h => h

theorem ofExcept (r : Except Error α) : Quiet (Host.Device.ofExcept r : Io (Wire ω) α) := by
  cases r
  · exact throw _
  · exact pure _

/-- A call of the transport that is not a feature access. -/
theorem transport (f : ω → Except OsError α × ω) : Quiet (Host.Device.transport (Wire.pass f)) := by
  refine bind (fun _ _ _ => Prog.Keeps.call fun _ h => h.world _) fun r => ?_
  cases r
  · exact throw _
  · exact pure _

theorem wp {m : Io (Wire ω) α} (hm : Quiet m) (h : w.Settled writes read reads) :
    m.wp (fun _ s => s.2.Settled writes read reads) (d, w) := hm writes read reads (d, w) h

end Quiet

section Access
variable [World ω]

/-- A feature access fails, or the device answers. -/
theorem wp_getFeature {reportId : U8} {Q : Except Stop (List U8) → Host.Device × Wire ω → Prop}
    (hfail : ∀ e world, Q (.error (.error e)) (d, w.failed world))
    (hanswer : ∀ payload world, w.moved.device.engine.getFeature reportId = some payload → Q (.ok payload)
      (d, { (if reportId = reportIdPinConfig then w.moved.readBack else w.moved) with world })) :
    (Host.Device.getFeature reportId).wp Q (d, w) := by
  rw [Host.Device.getFeature, Prog.wp_bind, Host.Device.transport, Prog.wp_bind, Prog.wp_call, Prog.post_ok]
  rcases hworld : World.getFeatureReport reportId w.world with ⟨e | a, world⟩
  · have hget : World.getFeatureReport reportId w = (.error e, w.failed world) := by
      simp only [World.getFeatureReport, hworld]
    simp only [hget]
    exact hfail _ world
  · rcases hfeature : w.moved.device.engine.getFeature reportId with _ | payload
    · have hget : World.getFeatureReport reportId w = (.error Bus.stalled, w.failed world) := by
        simp only [World.getFeatureReport, hworld, hfeature]
      simp only [hget]
      exact hfail _ world
    · have hget : World.getFeatureReport reportId w = (.ok (reportId :: payload),
          { (if reportId = reportIdPinConfig then w.moved.readBack else w.moved) with world }) := by
        simp only [World.getFeatureReport, hworld, hfeature]
      have hlong : ¬ (reportId :: payload).length < Host.reportLen := by
        rw [List.length_cons, Firmware.Engine.length_getFeature hfeature]
        decide
      have hid : ¬ Host.byteAt (reportId :: payload) 0 ≠ reportId := not_not.mpr rfl
      simp only [hget, Prog.wp_pure, Prog.post_ok]
      rw [if_neg hlong, if_neg hid]
      exact hanswer payload world hfeature

/-- A read of the configuration gives what the device has. -/
theorem wp_getPinConfig {Q : Except Stop PinConfigReport → Host.Device × Wire ω → Prop}
    (hdevice : w.device.Inv) (hfail : ∀ e world, Q (.error (.error e)) (d, w.failed world))
    (hread : ∀ (c : PinConfig) world, c.toFirmware = w.moved.device.engine.config →
      Q (.ok ⟨⟨w.moved.device.engine.result⟩, w.moved.device.engine.resultGpio,
        w.moved.device.engine.requestId, c⟩)
        ({ d with config := some c }, { w.moved.readBack with world })) :
    Host.Device.getPinConfig.wp Q (d, w) := by
  obtain ⟨c, hc, hdecode⟩ := Firmware.Engine.decode_getPinConfig (inv_moved hdevice).valid
  rw [Host.Device.getPinConfig, Prog.wp_bind]
  refine wp_getFeature (fun e world => hfail e world) fun payload world hpayload => ?_
  obtain rfl : w.moved.device.engine.getPinConfig = payload := Option.some.inj hpayload
  rw [Prog.post_ok, hdecode]
  exact hread c world hc

namespace Quiet

theorem readInfo : Quiet (Host.Device.readInfo : Io (Wire ω) DeviceInfo) := by
  have hfeature : Quiet (Host.Device.getFeature reportIdDeviceInfo : Io (Wire ω) (List U8)) := by
    rintro writes read reads ⟨d, w⟩ h
    exact wp_getFeature (Q := fun _ s => s.2.Settled writes read reads) (fun e world => h.failed world)
      fun payload world _ => h.moved.world world
  refine bind (gets _) fun info => ?_
  split
  · exact pure _
  · refine bind hfeature fun _ => bind (ofExcept _) fun info => ?_
    split
    · exact throw _
    · exact bind (set _) fun _ => pure _

theorem requestStatus : Quiet (Host.Device.requestStatus : Io (Wire ω) Host.StatusReport) := by
  refine bind (transport _) fun buf => ?_
  split
  · exact throw _
  · exact ofExcept _

theorem readRaw (timeout : Option ℕ) : Quiet (Host.Device.readRaw timeout : Io (Wire ω) (List U8)) :=
  transport _

theorem setOutputs (levels : List (U8 × Bool)) : Quiet (Host.Device.setOutputs levels : Io (Wire ω) Unit) :=
  bind (ofExcept _) fun _ => transport _

end Quiet

/-- A read gives the configuration that counts as read then. -/
theorem settled_getPinConfig (h : w.Settled writes read reads) :
    Host.Device.getPinConfig.wp (Prog.post
      (fun report s => s.2.Settled writes report.config.toFirmware (reads + 1))
      fun _ s => s.2.Settled writes read reads) (d, w) :=
  wp_getPinConfig h.device (fun _ world => h.failed world) fun c world hc => by
    rw [Prog.post_ok, hc]
    exact h.moved.readBack.world world

/-- A Set fails, or it is on its way. -/
theorem wp_send (h : w.Settled writes read reads) (payload : List U8)
    {Q : Except Stop Unit → Host.Device × Wire ω → Prop}
    (hfail : ∀ e world, Q (.error (.error e)) (d, w.failed world))
    (hsent : ∀ x w', w'.Sent x writes read reads → x.Sets payload read reads → Q (.ok ()) (d, w')) :
    (Host.Device.transport (World.sendFeatureReport (reportIdPinConfig :: payload))).wp Q (d, w) := by
  rw [Host.Device.transport, Prog.wp_bind, Prog.wp_call, Prog.post_ok]
  rcases hworld : World.sendFeatureReport (reportIdPinConfig :: payload) w.world with ⟨e | _, world⟩
  · have hsend : World.sendFeatureReport (reportIdPinConfig :: payload) w = (.error e, w.failed world) := by
      simp only [World.sendFeatureReport, hworld]
    simp only [hsend]
    exact hfail _ world
  · have hsend : World.sendFeatureReport (reportIdPinConfig :: payload) w =
        (.ok (), { w.moved.written (reportIdPinConfig :: payload) (w.script.headD ([], 0)).2 with
          world }) := by
      simp only [World.sendFeatureReport, hworld]
    simp only [hsend]
    obtain ⟨x, hx, hsets⟩ := h.moved.written payload (w.script.headD ([], 0)).2
    exact hsent x _ (hx.world world) hsets

/-- A call of `set_pin_config` that succeeds is one more write, and the pins it drives are outputs of the
    configuration. One that fails may have read the configuration back. -/
theorem settled_setPinConfig (config : PinConfig) (h : w.Settled writes read reads) :
    (Host.Device.setPinConfig config).wp (Prog.post
      (fun _ s => ∃ x requestId, s.2.Settled (writes ++ [x]) s.2.read (reads + 1) ∧
        x.Sets (payloadOf config requestId) read reads)
      fun _ s => s.2.Settled writes s.2.read s.2.reads ∧ reads ≤ s.2.reads) (d, w) := by
  have hsame : ∀ {s : Host.Device × Wire ω}, s.2.Settled writes read reads →
      s.2.Settled writes s.2.read s.2.reads ∧ reads ≤ s.2.reads := fun hs =>
    ⟨⟨hs.device, hs.sent, hs.writes, rfl, rfl⟩, hs.reads.ge⟩
  unfold Host.Device.setPinConfig
  refine Prog.wp_seq (Quiet.readInfo.wp h) ?_ fun _ _ hs => hsame hs
  rintro info ⟨d1, w1⟩ h1
  dsimp only
  split
  · exact hsame h1
  rw [Prog.wp_bind]
  refine Host.Device.wp_nextRequestId (fun id ids hid => ?_) (hsame h1)
  rw [Prog.post_ok, Host.encodePinConfigSet, if_neg hid]
  refine (Prog.wp_bind _ _ _).mpr ?_
  rw [Host.Device.ofExcept, Prog.wp_pure, Prog.post_ok, Prog.wp_bind]
  refine wp_send h1 (payloadOf config id) (fun e world => hsame (h1.failed world)) fun x w2 hx hsets => ?_
  rw [Prog.post_ok, Prog.wp_bind]
  refine wp_getPinConfig hx.device (fun e world => hsame (hx.failed world)) fun c world hc => ?_
  rw [Prog.post_ok]
  have hread := hx.readBack.world world
  have hconfirmed := hsets.confirmedBy_iff (e := w2.moved.device.engine) hc
  have hfailed : ¬ x.confirmedBy w2.moved.device.engine = true →
      { w2.moved.readBack with world }.Settled writes w2.moved.device.engine.config (w2.reads + 1) ∧
        reads ≤ w2.reads + 1 := fun h => by
    rw [if_neg h] at hread
    exact ⟨⟨hread.device, hread.sent, hread.writes, rfl, rfl⟩, hx.reads.ge.trans (Nat.le_succ _)⟩
  split_ifs with hid' hresult hconfig
  · exact hfailed fun h => hid' (hconfirmed.mp h).1
  · exact hfailed fun h => hresult (hconfirmed.mp h).2.1
  · exact hfailed fun h => hconfig (hconfirmed.mp h).2.2
  · rw [if_pos (hconfirmed.mpr ⟨not_not.mp hid', not_not.mp hresult, not_not.mp hconfig⟩)] at hread
    exact ⟨x, id, hread, hsets⟩

end Access

end Wire

end Hidpin.System
