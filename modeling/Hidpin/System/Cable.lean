import Hidpin.Host.Watcher
import Hidpin.System.Hosts
import Hidpin.System.Line

/-! A device that only one watcher writes. Its reports wait in order until the watcher reads them, and before
    every access the device may do anything by itself. Each access is atomic: it fails or it does what the
    firmware does, and a Set may do both. Everything else is an arbitrary world. -/

namespace Hidpin.System
open Firmware (Gpio Sent)
open Host (Error OsError World PinConfig PinConfigReport StatusReport Stop reportIdStatus
  reportIdPinConfig reportIdOutput)
open Host.Device (Io)
open Lib (Prog)

/-- An operation of the device that no host asks for, or an output command. -/
abbrev Own := { op : Firmware.Op // ∀ payload nowUs, op ≠ .setPinConfig payload nowUs }

/-- What happens before an access, and the device time then. The device may have been restarted when it is
    opened, and a Set may reach it although the transfer fails. -/
structure Pause where
  restart : Option (Firmware.DeviceInfo × U64)
  ops : List Own
  nowUs : U64
  reached : Bool

/-- `next` is the number of reports read or lost before the device was opened. The other fields record: what
    was published when the latest report was assembled that the watcher got, whether the latest access was a
    Set, whether a Set was not read back since, and whether no access came at a bad moment. -/
structure Cable (ω : Type) where
  world : ω
  device : Firmware.Device
  next : ℕ
  script : List Pause
  shown : Firmware.PinConfig
  sent : Bool
  unseen : Bool
  timely : Bool

namespace Cable
variable {ω : Type}

/-- The line between the device and the watcher. -/
def line (w : Cable ω) : Line := w.device.line w.next

/-- What happens before the next access. -/
def pause (w : Cable ω) : Pause := w.script.headD ⟨none, [], 0, false⟩

/-- The device after the next pause. -/
def moved (w : Cable ω) : Cable ω :=
  { w with device := w.pause.ops.foldl (fun d op => d.step op.val) w.device, script := w.script.tail }

/-- An access that failed. -/
def failed (w : Cable ω) (world : ω) : Cable ω := { w.moved with world, sent := false }

/-- A read of the configuration is late when a Set was not read back and the device did not yet tell of
    it. -/
def readsLate (w : Cable ω) : Bool := w.unseen && !w.sent && !(w.line.quiet && !w.line.changing)

/-- A read of the configuration. -/
def readBack (w : Cable ω) : Cable ω :=
  { w with sent := false, unseen := false, timely := w.timely && !w.readsLate }

/-- A Set is early when a report about an earlier change is still on its way. -/
def written (w : Cable ω) (report : List U8) (nowUs : U64) : Cable ω :=
  { w with
    device := w.device.setFeature (Host.byteAt report 0) report.tail nowUs
    sent := true
    unseen := true
    timely := w.timely && w.line.quiet }

/-- The watcher can tell the reports before this answer from those after it. -/
def refers (w : Cable ω) (nowUs : U64) : Bool :=
  let answer := w.device.engine.getStatus nowUs
  decide (answer.seq ≠ 0) && decide (w.device.engine.queue.count = 0) &&
    decide (w.line.unread.length ≤ 0x8000)

/-- A status request is early when a change has still to settle or was not read back, or when the reports
    before the answer are about another configuration and cannot be told from those after it. -/
def asked (w : Cable ω) (nowUs : U64) : Cable ω :=
  { w with
    shown := w.device.published
    timely := w.timely && (!w.line.changing && !w.unseen &&
      (w.line.unread.all (fun r => decide (r.published.Fits w.line.config)) || w.refers nowUs)) }

/-- The device is opened. -/
def opened (w : Cable ω) : Cable ω :=
  let started := { w with
    device := w.pause.restart.elim w.device fun (info, startUs) => .start info startUs
    next := 0 }
  { started.moved with next := started.moved.device.sent.length, sent := false, unseen := false }

/-- A call that leaves the device alone. -/
def pass {α : Type} (f : ω → α × ω) (w : Cable ω) : α × Cable ω :=
  ((f w.world).1, { w with world := (f w.world).2 })

instance [World ω] : World (Cable ω) where
  devices := pass World.devices
  openDevice entry w :=
    ((World.openDevice entry w.world).1, { w.opened with world := (World.openDevice entry w.world).2 })
  read timeout w :=
    let r := World.read timeout w.world
    let w' := { w.moved with world := r.2 }
    match r.1, w'.line.unread with
    | .error e, _ => (.error e, w')
    | .ok [], _ => (.ok [], w')
    | .ok (_ :: _), [] => (.ok [], w')
    | .ok (_ :: _), report :: _ =>
      (.ok (reportIdStatus :: Firmware.encodeStatus report.status),
        { w' with next := w'.next + 1, shown := report.published })
  write report w :=
    let r := World.write report w.world
    match r.1 with
    | .error e => (.error e, { w.moved with world := r.2 })
    | .ok () =>
      (.ok (), { w.moved with
        world := r.2
        device := if Host.byteAt report 0 = reportIdOutput then w.moved.device.step (.output report.tail)
          else w.moved.device })
  getFeatureReport reportId w :=
    let r := World.getFeatureReport reportId w.world
    match r.1, w.moved.device.engine.getFeature reportId with
    | .error e, _ => (.error e, w.failed r.2)
    | .ok _, none => (.error Bus.stalled, w.failed r.2)
    | .ok _, some payload =>
      (.ok (reportId :: payload),
        { (if reportId = reportIdPinConfig then w.moved.readBack else w.moved) with world := r.2 })
  sendFeatureReport report w :=
    let r := World.sendFeatureReport report w.world
    match r.1 with
    | .error e =>
      (.error e,
        if w.pause.reached then { w.moved.written report w.pause.nowUs with world := r.2, sent := false }
        else w.failed r.2)
    | .ok () => (.ok (), { w.moved.written report w.pause.nowUs with world := r.2 })
  getInputReport reportId w :=
    let r := World.getInputReport reportId w.world
    match r.1 with
    | .error e => (.error e, { w.moved with world := r.2 })
    | .ok _ =>
      if reportId = reportIdStatus then
        (.ok (reportIdStatus :: Firmware.encodeStatus (w.moved.device.engine.getStatus w.pause.nowUs)),
          { w.moved.asked w.pause.nowUs with world := r.2 })
      else (.error Bus.stalled, { w.moved with world := r.2 })
  instant := pass World.instant
  systemTime := pass World.systemTime
  seed := pass World.seed

/-- A device that was just started, and a watcher that did not access it yet. -/
def start (world : ω) (info : Firmware.DeviceInfo) (startUs : U64) (script : List Pause) : Cable ω where
  world
  device := .start info startUs
  next := 0
  script
  shown := Firmware.blankConfig
  sent := false
  unseen := false
  timely := true

/-! ### What a watcher may rely on -/

/-- The device is consistent, and the last change is the only one under way. -/
structure Sane (w : Cable ω) : Prop where
  device : w.device.Consistent
  next : w.next ≤ w.device.sent.length
  single : w.timely = true → w.line.Single

/-- What a watcher that knows this configuration may read, if it came at no bad moment. -/
structure Linked (stale : U16 → Bool) (awaiting : Bool) (known : Firmware.PinConfig) (w : Cable ω) :
    Prop where
  sane : w.Sane
  sent : w.sent = false
  seen : w.timely = true → w.unseen = false → known = w.line.config
  phase : w.timely = true → w.line.Phase stale awaiting w.unseen known

/-- Nothing changes any more; the watcher may still have to read the configuration. -/
structure Fresh (stale : U16 → Bool) (w : Cable ω) : Prop where
  sane : w.Sane
  sent : w.sent = false
  steady : w.timely = true → w.line.Steady stale

variable {w : Cable ω} {stale : U16 → Bool} {awaiting : Bool} {known : Firmware.PinConfig}

/-- A property of the line that the device keeps when it does something by itself. -/
def Kept (P : Line → Prop) : Prop := ∀ l l', l.Settles → l.Moves l' → P l → P l'

/-- Before an access the device keeps what its features say, and moves the line. -/
theorem moved_spec (h : w.Sane) : w.moved.Sane ∧ w.moved.device.engine.features = w.device.engine.features ∧
    ∀ P, Kept P → P w.line → P w.moved.line := by
  have hops : ∀ ops : List Own, (ops.foldl (fun d op => d.step op.val) w.device).Consistent ∧
      w.next ≤ (ops.foldl (fun d op => d.step op.val) w.device).sent.length ∧
      (ops.foldl (fun d op => d.step op.val) w.device).engine.features = w.device.engine.features ∧
      ∀ P, Kept P → P w.line → P ((ops.foldl (fun d op => d.step op.val) w.device).line w.next) := by
    refine fun ops => Lib.foldl_preserves (P := fun d : Firmware.Device => d.Consistent ∧
      w.next ≤ d.sent.length ∧
      d.engine.features = w.device.engine.features ∧ ∀ P, Kept P → P w.line → P (d.line w.next)) ?_ ops
      ⟨h.device, h.next, rfl, fun _ _ h => h⟩
    rintro d ⟨op, hop⟩ ⟨hd, hnext, hfeatures, hline⟩
    refine ⟨d.consistent_step op hd, ?_, (d.features_step hop).trans hfeatures, fun P hP hw => ?_⟩
    · rw [Firmware.Device.sent_step, List.length_append]
      exact Nat.le_add_right_of_le hnext
    · exact hP (d.line w.next) _ hd.settles (d.moves_step hop hnext) (hline P hP hw)
  obtain ⟨hd, hnext, hfeatures, hline⟩ := hops w.pause.ops
  exact ⟨⟨hd, hnext, fun ht => hline Line.Single (fun _ _ _ hm hsingle => hsingle.moves hm) (h.single ht)⟩,
    hfeatures, hline⟩

theorem Sane.moved (h : w.Sane) : w.moved.Sane := (moved_spec h).1

theorem features_moved (h : w.Sane) : w.moved.device.engine.features = w.device.engine.features :=
  (moved_spec h).2.1

theorem config_moved (h : w.Sane) : w.moved.line.config = w.line.config :=
  congrArg (fun f => Firmware.PinConfigReport.config f.2) (features_moved h)

theorem Linked.moved (h : w.Linked stale awaiting known) : w.moved.Linked stale awaiting known where
  sane := h.sane.moved
  sent := h.sent
  seen ht hunseen := (h.seen ht hunseen).trans (config_moved h.sane).symm
  phase ht := (moved_spec h.sane).2.2 (fun l => l.Phase stale awaiting w.unseen known)
    (fun _ _ hsettles hm h => h.moves hsettles hm) (h.phase ht)

theorem Fresh.moved (h : w.Fresh stale) : w.moved.Fresh stale where
  sane := h.sane.moved
  sent := h.sent
  steady ht :=
    (moved_spec h.sane).2.2 (fun l => l.Steady stale) (fun _ _ hsettles hm h => h.moves hsettles hm)
    (h.steady ht)

/-! ### The accesses -/

/-- The same device and reports, after an access that came at no better moment. -/
theorem Sane.of {w' : Cable ω} (h : w.Sane) (hdevice : w'.device = w.device) (hnext : w'.next = w.next)
    (ht : w'.timely = true → w.timely = true) : w'.Sane where
  device := hdevice ▸ h.device
  next := by rw [hdevice, hnext]; exact h.next
  single htimely := by rw [line, hdevice, hnext]; exact h.single (ht htimely)

/-- After a failed access it is the same. -/
theorem Linked.failed (h : w.Linked stale awaiting known) (world : ω) :
    (w.failed world).Linked stale awaiting known :=
  have hmoved := h.moved
  ⟨hmoved.sane.of rfl rfl id, rfl, hmoved.seen, hmoved.phase⟩

theorem Linked.world (h : w.Linked stale awaiting known) (world : ω) :
    { w with world }.Linked stale awaiting known :=
  ⟨h.sane.of rfl rfl id, h.sent, h.seen, h.phase⟩

/-- A read of the configuration. A watcher that awaits nothing knew it. -/
theorem Linked.readBack (h : w.Linked stale awaiting known) :
    w.readBack.Linked stale awaiting w.line.config ∧
    (w.readBack.timely = true → awaiting = false → known = w.line.config) := by
  have hread : w.readBack.timely = true → w.line.Phase stale awaiting false w.line.config ∧
      (awaiting = false → known = w.line.config) := fun ht => by
    obtain ⟨ht, hlate⟩ := Bool.and_eq_true_iff.mp ht
    refine (h.phase ht).readConfig fun hunseen => ?_
    simpa [readsLate, hunseen, h.sent, and_comm] using hlate
  exact ⟨⟨h.sane.of rfl rfl fun ht => (Bool.and_eq_true_iff.mp ht).1, rfl, fun _ _ => rfl,
    fun ht => (hread ht).1⟩,
    fun ht => (hread ht).2⟩

/-- When nothing changes any more, a read tells the watcher the configuration. -/
theorem Fresh.readBack (h : w.Fresh stale) (awaiting : Bool) :
    w.readBack.Linked stale awaiting w.line.config where
  sane := h.sane.of rfl rfl fun ht => (Bool.and_eq_true_iff.mp ht).1
  sent := rfl
  seen _ _ := rfl
  phase ht := .steady (h.steady (Bool.and_eq_true_iff.mp ht).1) rfl

/-- A device that was opened: its first report is still to come. -/
theorem Sane.opened (h : w.Sane) (stale : U16 → Bool) : w.opened.Linked stale true w.opened.line.config := by
  have hstarted : { w with
      device := w.pause.restart.elim w.device fun (info, startUs) => .start info startUs
      next := 0 }.Sane := by
    cases hrestart : w.pause.restart with
    | none => exact ⟨h.device, Nat.zero_le _, h.single⟩
    | some board =>
      refine ⟨Firmware.Device.consistent_start _ _, Nat.zero_le _, fun _ hchanging => ?_⟩
      have hchanging : ((Firmware.Device.start board.1 board.2).line 0).changing = true := hchanging
      rw [Firmware.Device.changing_start] at hchanging
      cases hchanging
  have hmoved := hstarted.moved
  have hunread : w.opened.line.unread = [] := List.drop_length
  have hsingle : w.timely = true → w.opened.line.Single := fun ht => hmoved.single ht
  refine ⟨⟨hmoved.device, le_rfl, hsingle⟩, rfl, fun _ _ => rfl, fun ht => ?_⟩
  cases hchanging : w.opened.line.changing with
  | false =>
    exact .steady ⟨hchanging, by rw [hunread]; exact Line.Usable.of_fits (List.forall_mem_nil _)⟩ rfl
  | true =>
    refine .awaited rfl [] [] ⟨hunread, List.forall_mem_nil _, List.forall_mem_nil _, ?_⟩
    rw [Line.Told, hsingle ht hchanging, hchanging]
    rfl

variable {config : PinConfig} {requestId : U8}

/-- A Set that was sent: the device rejected it, or its features show it. -/
inductive Sent (stale : U16 → Bool) (awaiting : Bool) (known : Firmware.PinConfig) (config : PinConfig)
    (requestId : U8) (w : Cable ω) : Prop where
  | rejected (hknown : w.timely = true → known = w.line.config)
      (hphase : w.timely = true → w.line.Phase stale awaiting false known)
  | applied (hphase : w.timely = true → w.line.Phase stale awaiting true known)
      (hresult : w.device.engine.features.2 =
        ⟨Firmware.resultOk, Firmware.resultGpioNone, requestId, config.toFirmware⟩)

theorem Linked.written (h : w.Linked stale awaiting known) (hunseen : w.unseen = false) (config : PinConfig)
    (requestId : U8) (nowUs : U64) :
    (w.written (reportIdPinConfig :: payloadOf config requestId) nowUs).Sane ∧
      (w.written (reportIdPinConfig :: payloadOf config requestId) nowUs).Sent stale awaiting known
        config requestId := by
  obtain ⟨hsane, -, hseen, hphase⟩ := h
  have hdevice := w.device.consistent_step (.setPinConfig (payloadOf config requestId) nowUs) hsane.device
  have hfeatures := fun hvalid => Firmware.Engine.features_setPinConfig
    (r := ⟨.ok, 0, requestId, config⟩) (e := w.device.engine) hvalid nowUs
  have hpayload : Firmware.payloadConfig (payloadOf config requestId) = config.toFirmware :=
    PinConfigReport.payloadConfig_encode _
  have htimely : (w.written (reportIdPinConfig :: payloadOf config requestId) nowUs).timely = true →
      w.timely = true ∧ w.line.quiet = true := Bool.and_eq_true_iff.mp
  rw [hunseen] at hphase
  cases w.device.setEffect (payloadOf config requestId) nowUs w.next with
  | rejected hline =>
    replace hline : (w.written (reportIdPinConfig :: payloadOf config requestId) nowUs).line = w.line :=
      hline
    refine ⟨⟨hdevice, hsane.next, fun ht => ?_⟩, .rejected (fun ht => ?_) fun ht => ?_⟩
    · rw [hline]
      exact hsane.single (htimely ht).1
    · rw [hline]
      exact hseen (htimely ht).1 hunseen
    · rw [hline]
      exact hphase (htimely ht).1
  | accepted hvalid hline =>
    rw [hpayload] at hvalid
    rcases hline with hline | hline
    · replace hline : (w.written (reportIdPinConfig :: payloadOf config requestId) nowUs).line = w.line :=
        hline
      refine ⟨⟨hdevice, hsane.next, fun ht => ?_⟩,
        .applied (fun ht => ?_) (congrArg Prod.snd (hfeatures hvalid))⟩
      · rw [hline]
        exact hsane.single (htimely ht).1
      · rw [hline]
        exact (hphase (htimely ht).1).unread
    · replace hline : (w.written (reportIdPinConfig :: payloadOf config requestId) nowUs).line =
          { w.line with changing := true, config := Firmware.payloadConfig (payloadOf config requestId) } :=
            hline
      refine ⟨⟨hdevice, hsane.next, fun ht => ?_⟩,
        .applied (fun ht => ?_) (congrArg Prod.snd (hfeatures hvalid))⟩
      · rw [hline]
        have hquiet := (Bool.and_eq_true_iff.mp (htimely ht).2).1
        exact fun _ => by simpa using hquiet
      · rw [hline]
        exact (hphase (htimely ht).1).set hsane.device.settles (htimely ht).2 _

theorem Sent.moved (h : w.Sent stale awaiting known config requestId) (hsane : w.Sane) :
    w.moved.Sent stale awaiting known config requestId := by
  obtain ⟨hsane', hfeatures, hkept⟩ := moved_spec hsane
  have hphase : ∀ unseen, w.line.Phase stale awaiting unseen known →
      w.moved.line.Phase stale awaiting unseen known :=
    fun unseen => hkept (fun l => l.Phase stale awaiting unseen known) fun _ _ hsettles hm h =>
      h.moves hsettles hm
  cases h with
  | rejected hknown h =>
    exact .rejected (fun ht => (hknown ht).trans (config_moved hsane).symm) fun ht => hphase _ (h ht)
  | applied h hresult => exact .applied (fun ht => hphase _ (h ht)) (hfeatures ▸ hresult)

/-- A Set that was not read back. -/
theorem Sent.failed (h : w.Sent stale awaiting known config requestId) (hsane : w.Sane)
    (hunseen : w.unseen = true) (world : ω) : (w.failed world).Linked stale awaiting known := by
  have hmoved := h.moved hsane
  refine ⟨hsane.moved.of rfl rfl id, rfl, fun _ hfalse => ?_, fun ht => ?_⟩
  · exact absurd (hunseen.symm.trans hfalse) (by decide)
  · have hphase : w.moved.line.Phase stale awaiting true known := by
      cases hmoved with
      | rejected hknown h => exact (h ht).unread
      | applied h hresult => exact h ht
    have hseen : (w.failed world).unseen = true := hunseen
    rw [hseen]
    exact hphase

/-- A read after a Set: the watcher awaits what it wrote, or the configuration is the one before. -/
theorem Sent.readBack (h : w.Sent stale awaiting known config requestId) (hsane : w.Sane) :
    w.readBack.Linked stale true w.line.config ∧
    (¬ (w.device.engine.requestId = requestId ∧ w.device.engine.result = Firmware.resultOk ∧
      w.device.engine.config = config.toFirmware) → w.readBack.Linked stale awaiting known) := by
  have htimely : w.readBack.timely = true → w.timely = true := fun ht => (Bool.and_eq_true_iff.mp ht).1
  have hsane' : w.readBack.Sane := hsane.of rfl rfl htimely
  cases h with
  | rejected hknown h =>
    exact ⟨⟨hsane', rfl, fun _ _ => rfl, fun ht => (h (htimely ht)).wrote false⟩,
      fun _ => ⟨hsane', rfl, fun ht _ => hknown (htimely ht), fun ht => h (htimely ht)⟩⟩
  | applied h hresult =>
    refine ⟨⟨hsane', rfl, fun _ _ => rfl, fun ht => (h (htimely ht)).wrote false⟩,
      fun hnot => absurd ?_ hnot⟩
    exact ⟨congrArg Firmware.PinConfigReport.requestId hresult,
      congrArg Firmware.PinConfigReport.result hresult, congrArg Firmware.PinConfigReport.config hresult⟩

/-! ### What the calls of the library do -/

section Access
variable [World ω] {d : Host.Device}

/-- A feature access fails, or the device answers. -/
theorem getFeatureReport_cases (reportId : U8) (w : Cable ω) :
    (∃ e world, World.getFeatureReport reportId w = (.error e, w.failed world)) ∨
    ∃ payload world, w.moved.device.engine.getFeature reportId = some payload ∧
      World.getFeatureReport reportId w = (.ok (reportId :: payload),
        { (if reportId = reportIdPinConfig then w.moved.readBack else w.moved) with world }) := by
  simp only [World.getFeatureReport]
  rcases World.getFeatureReport reportId w.world with ⟨e | buf, world⟩
  · exact Or.inl ⟨e, world, rfl⟩
  · rcases hfeature : w.moved.device.engine.getFeature reportId with _ | payload
    · exact Or.inl ⟨Bus.stalled, world, rfl⟩
    · exact Or.inr ⟨payload, world, rfl, rfl⟩

theorem wp_getFeature {reportId : U8} {Q : Except Stop (List U8) → Host.Device × Cable ω → Prop}
    (hfail : ∀ e world, Q (.error (.error e)) (d, w.failed world))
    (hanswer : ∀ payload world, w.moved.device.engine.getFeature reportId = some payload → Q (.ok payload)
      (d, { (if reportId = reportIdPinConfig then w.moved.readBack else w.moved) with world })) :
    (Host.Device.getFeature reportId).wp Q (d, w) := by
  rw [Host.Device.getFeature, Prog.wp_bind, Host.Device.transport, Prog.wp_bind, Prog.wp_call, Prog.post_ok]
  rcases getFeatureReport_cases reportId w with ⟨e, world, hget⟩ | ⟨payload, world, hfeature, hget⟩
  · simp only [hget]
    exact hfail _ world
  · have hlong : ¬ (reportId :: payload).length < Host.reportLen := by
      rw [List.length_cons, Firmware.Engine.length_getFeature hfeature]
      decide
    have hid : ¬ Host.byteAt (reportId :: payload) 0 ≠ reportId := not_not.mpr rfl
    simp only [hget, Prog.wp_pure, Prog.post_ok]
    rw [if_neg hlong, if_neg hid]
    exact hanswer payload world hfeature

/-- A read of the configuration gives what the device has. -/
theorem wp_getPinConfig {Q : Except Stop PinConfigReport → Host.Device × Cable ω → Prop}
    (hinv : w.moved.device.Inv) (hfail : ∀ e world, Q (.error (.error e)) (d, w.failed world))
    (hread : ∀ (c : PinConfig) world, c.toFirmware = w.moved.line.config →
      Q (.ok ⟨⟨w.moved.device.engine.result⟩, w.moved.device.engine.resultGpio,
        w.moved.device.engine.requestId, c⟩)
        ({ d with config := some c }, { w.moved.readBack with world })) :
    Host.Device.getPinConfig.wp Q (d, w) := by
  obtain ⟨c, hc, hdecode⟩ := Firmware.Engine.decode_getPinConfig hinv.valid
  rw [Host.Device.getPinConfig, Prog.wp_bind]
  refine wp_getFeature (fun e world => hfail e world) fun payload world hpayload => ?_
  obtain rfl : w.moved.device.engine.getPinConfig = payload := Option.some.inj hpayload
  rw [Prog.post_ok, hdecode]
  exact hread c world hc

omit [World ω] in
theorem moreEvents_answer (e : Firmware.Engine) (nowUs : U64) :
    (hostReport (e.getStatus nowUs)).moreEvents = !decide (e.queue.count = 0) := by
  have hflags : (hostReport (e.getStatus nowUs)).flags =
      if e.queue.count > 0 then Firmware.flagMoreEvents else 0 := rfl
  rw [StatusReport.moreEvents, hflags]
  by_cases hzero : e.queue.count = 0
  · rw [hzero]
    rfl
  · have hpos : e.queue.count > 0 := by bv_omega
    rw [if_pos hpos, decide_eq_false hzero]
    rfl

/-- A status request fails, or the device answers it. -/
theorem wp_answer {Q : Except Stop StatusReport → Host.Device × Cable ω → Prop}
    (hfail : ∀ e world, Q (.error (.error e)) (d, { w.moved with world }))
    (hanswer : ∀ world, Q (.ok (hostReport (w.moved.device.engine.getStatus w.pause.nowUs)))
      (d, { w.moved.asked w.pause.nowUs with world })) :
    Host.Device.requestStatus.wp Q (d, w) := by
  rw [Host.Device.requestStatus, Prog.wp_bind, Host.Device.transport, Prog.wp_bind,
    Prog.wp_call, Prog.post_ok]
  rcases hworld : World.getInputReport reportIdStatus w.world with ⟨e | buf, world⟩
  · have hask : World.getInputReport reportIdStatus w = (.error e, { w.moved with world }) := by
      simp only [World.getInputReport, hworld]
    simp only [hask]
    exact hfail _ world
  · have hask : World.getInputReport reportIdStatus w =
        (.ok (reportIdStatus :: Firmware.encodeStatus (w.moved.device.engine.getStatus w.pause.nowUs)),
          { w.moved.asked w.pause.nowUs with world }) := by
      simp only [World.getInputReport, hworld, if_true]
    obtain ⟨hdecode, hlength⟩ :=
      decode_hostReport (s := w.moved.device.engine.getStatus w.pause.nowUs) (Nat.zero_le _)
        (List.forall_mem_nil _)
    have hshort : ∀ payload : List U8, payload.length = 63 →
        ¬ ((reportIdStatus :: payload).length < Host.reportLen ∨
          Host.byteAt (reportIdStatus :: payload) 0 ≠ reportIdStatus) := fun payload h => by
      rw [List.length_cons, h]
      exact not_or.mpr ⟨by decide, not_not.mpr rfl⟩
    simp only [hask, Prog.wp_pure, Prog.post_ok]
    rw [if_neg (hshort _ hlength), List.tail_cons, hdecode]
    exact hanswer world

/-- A read fails, or there is nothing yet, or it gives the oldest report. -/
theorem wp_read (timeout : Option ℕ) {Q : Except Stop (List U8) → Host.Device × Cable ω → Prop}
    (hfail : ∀ e world, Q (.error (.error e)) (d, { w.moved with world }))
    (hnone : ∀ world, Q (.ok []) (d, { w.moved with world }))
    (hreport : ∀ (r : Firmware.Sent) reports world, w.moved.line.unread = r :: reports →
      Q (.ok (reportIdStatus :: Firmware.encodeStatus r.status))
        (d, { w.moved with world, next := w.moved.next + 1, shown := r.published })) :
    (Host.Device.readRaw timeout).wp Q (d, w) := by
  rw [Host.Device.readRaw, Host.Device.transport, Prog.wp_bind, Prog.wp_call, Prog.post_ok]
  rcases hworld : World.read timeout w.world with ⟨e | _ | ⟨byte, bytes⟩, world⟩
  · have hread : World.read timeout w = (.error e, { w.moved with world }) := by
      simp only [World.read, hworld]
    simp only [hread]
    exact hfail _ world
  · have hread : World.read timeout w = (.ok [], { w.moved with world }) := by
      simp only [World.read, hworld]
    simp only [hread]
    exact hnone world
  · rcases hunread : w.moved.line.unread with _ | ⟨r, reports⟩
    · have hline : { w.moved with world }.line.unread = [] := hunread
      have hread : World.read timeout w = (.ok [], { w.moved with world }) := by
        simp only [World.read, hworld, hline]
      simp only [hread]
      exact hnone world
    · have hline : { w.moved with world }.line.unread = r :: reports := hunread
      have hread : World.read timeout w = (.ok (reportIdStatus :: Firmware.encodeStatus r.status),
          { w.moved with world, next := w.moved.next + 1, shown := r.published }) := by
        simp only [World.read, hworld, hline]
      simp only [hread]
      exact hreport r reports world hunread

/-- The watcher got nothing and wrote nothing. -/
structure Same (w w' : Cable ω) : Prop where
  shown : w'.shown = w.shown
  unseen : w'.unseen = w.unseen

theorem linked_readInfo (w₀ : Cable ω) : Prog.Keeps (fun s => s.2.Linked stale awaiting known ∧ w₀.Same s.2)
    (Host.Device.readInfo : Io (Cable ω) Host.DeviceInfo) := by
  let I : Cable ω → Prop := fun w => w.Linked stale awaiting known ∧ w₀.Same w
  have hfeature : Prog.Keeps (fun s => I s.2)
      (Host.Device.getFeature Host.reportIdDeviceInfo : Io (Cable ω) (List U8)) := by
    rintro ⟨d, w⟩ ⟨h, hsame⟩
    exact wp_getFeature (Q := fun _ s => s.2.Linked stale awaiting known ∧ w₀.Same s.2)
      (fun e world => ⟨h.failed world, hsame.shown, hsame.unseen⟩)
      fun payload world _ => ⟨h.moved.world world, hsame.shown, hsame.unseen⟩
  refine Prog.Keeps.bind (Prog.Keeps.gets _) fun info => ?_
  split
  · exact Prog.Keeps.pure _
  · refine Prog.Keeps.bind hfeature fun _ => Prog.Keeps.bind (Host.Device.Unmoved.ofExcept (I := I) _)
      fun info => ?_
    split
    · exact Prog.Keeps.throw _
    · exact Prog.Keeps.bind (Host.Device.Unmoved.set (I := I) _) fun _ => Prog.Keeps.pure _

/-- An output command is one more thing that happens to the device. -/
theorem linked_write (report : List U8) (h : w.Linked stale awaiting known) :
    (World.write report w).2.Linked stale awaiting known := by
  have hmoved := h.moved
  simp only [World.write]
  rcases World.write report w.world with ⟨e | _, world⟩
  · exact hmoved.world world
  · dsimp only
    split
    · have hpaused :
          { w.moved with script := [⟨none, [⟨.output report.tail, nofun⟩], 0, false⟩] }.Linked
            stale awaiting known :=
        ⟨hmoved.sane.of rfl rfl id, hmoved.sent, hmoved.seen, hmoved.phase⟩
      have houtput := hpaused.moved
      exact ⟨houtput.sane.of rfl rfl id, houtput.sent, houtput.seen, houtput.phase⟩
    · exact hmoved.world world

theorem linked_setOutputs (levels : List (U8 × Bool)) : Prog.Keeps (fun s => s.2.Linked stale awaiting known)
    (Host.Device.setOutputs levels : Io (Cable ω) Unit) := by
  let I : Cable ω → Prop := fun w => w.Linked stale awaiting known
  exact Prog.Keeps.bind (Host.Device.Unmoved.ofExcept (I := I) _) fun _ =>
    Host.Device.Unmoved.transport (I := I) fun w h => linked_write _ h

/-- After a read the watcher knows the configuration; one that fails changes nothing. -/
theorem linked_getPinConfig (h : w.Linked stale awaiting known) :
    Host.Device.getPinConfig.wp (Prog.post
      (fun report s => s.2.Linked stale awaiting report.config.toFirmware ∧ s.2.shown = w.shown ∧
        s.2.unseen = false ∧
        (s.2.timely = true → awaiting = false → known = report.config.toFirmware))
      fun _ s => s.2.Linked stale awaiting known ∧ s.2.shown = w.shown) (d, w) := by
  refine wp_getPinConfig h.sane.moved.device.inv (fun e world => ⟨h.failed world, rfl⟩) fun c world hc => ?_
  obtain ⟨hread, hknown⟩ := h.moved.readBack
  rw [Prog.post_ok, hc]
  exact ⟨hread.world world, rfl, rfl, hknown⟩

theorem fresh_getPinConfig (awaiting : Bool) (h : w.Fresh stale) :
    Host.Device.getPinConfig.wp (Prog.post
      (fun report s => s.2.Linked stale awaiting report.config.toFirmware ∧ s.2.shown = w.shown ∧
        report.config.toFirmware = w.line.config)
      fun e s => (∃ e', e = .error e') ∧ s.2.Sane ∧ s.2.sent = false) (d, w) := by
  refine wp_getPinConfig h.sane.moved.device.inv
    (fun e world => ⟨⟨e, rfl⟩, h.sane.moved.of rfl rfl id, rfl⟩)
    fun c world hc => ?_
  rw [Prog.post_ok, hc]
  exact ⟨(h.moved.readBack awaiting).world world, rfl, config_moved h.sane⟩

/-- A Set fails, or it is on its way. -/
theorem wp_send (h : w.Linked stale awaiting known) (hunseen : w.unseen = false)
    {Q : Except Stop Unit → Host.Device × Cable ω → Prop}
    (hfail : ∀ e w', w'.Linked stale awaiting known → w'.shown = w.shown → Q (.error (.error e)) (d, w'))
    (hsent : ∀ w', w'.Sane → w'.Sent stale awaiting known config requestId → w'.shown = w.shown →
      w'.unseen = true → Q (.ok ()) (d, w')) :
    (Host.Device.transport (World.sendFeatureReport (reportIdPinConfig :: payloadOf config requestId))).wp
      Q (d, w) := by
  rw [Host.Device.transport, Prog.wp_bind, Prog.wp_call, Prog.post_ok]
  obtain ⟨hsane, hset⟩ := h.moved.written hunseen config requestId w.pause.nowUs
  rcases hworld : World.sendFeatureReport (reportIdPinConfig :: payloadOf config requestId) w.world with
    ⟨e | _, world⟩
  · have hsend : World.sendFeatureReport (reportIdPinConfig :: payloadOf config requestId) w =
        (.error e, if w.pause.reached then
          { w.moved.written (reportIdPinConfig :: payloadOf config requestId) w.pause.nowUs with
            world, sent := false }
          else w.failed world) := by
      simp only [World.sendFeatureReport, hworld]
    simp only [hsend]
    split
    · refine hfail _ _ ⟨hsane.of rfl rfl id, rfl, fun _ hfalse => ?_, fun ht => ?_⟩ rfl
      · cases hfalse
      · cases hset with
        | rejected hknown hphase => exact (hphase ht).unread
        | applied hphase hresult => exact hphase ht
    · exact hfail _ _ (h.failed world) rfl
  · have hsend : World.sendFeatureReport (reportIdPinConfig :: payloadOf config requestId) w =
        (.ok (), { w.moved.written (reportIdPinConfig :: payloadOf config requestId) w.pause.nowUs with
          world }) := by
      simp only [World.sendFeatureReport, hworld]
    simp only [hsend]
    refine hsent _ (hsane.of rfl rfl id) ?_ rfl rfl
    cases hset with
    | rejected hknown hphase => exact .rejected hknown hphase
    | applied hphase hresult => exact .applied hphase hresult

/-- A call of `set_pin_config` that succeeds leaves a watcher that awaits its configuration; one that fails
    leaves it with what it knew. -/
theorem linked_setPinConfig (config : PinConfig) (h : w.Linked stale awaiting known)
    (hunseen : w.unseen = false) :
    (Host.Device.setPinConfig config).wp (Prog.post
      (fun _ s => s.2.Linked stale true config.toFirmware ∧ s.2.shown = w.shown)
      fun _ s => s.2.Linked stale awaiting known ∧ s.2.shown = w.shown) (d, w) := by
  have hinfo : (Host.Device.readInfo : Io (Cable ω) _).wp
      (fun _ s => s.2.Linked stale awaiting known ∧ w.Same s.2) (d, w) :=
    linked_readInfo w (d, w) ⟨h, rfl, rfl⟩
  unfold Host.Device.setPinConfig
  refine Prog.wp_seq hinfo ?_ fun _ _ hs => ⟨hs.1, hs.2.shown⟩
  rintro info ⟨d1, w1⟩ ⟨h1, hsame⟩
  dsimp only at h1 hsame ⊢
  split
  · exact ⟨h1, hsame.shown⟩
  rw [Prog.wp_bind]
  refine Host.Device.wp_nextRequestId (fun id ids hid => ?_) ⟨h1, hsame.shown⟩
  rw [Prog.post_ok, Host.encodePinConfigSet, if_neg hid]
  refine (Prog.wp_bind _ _ _).mpr ?_
  rw [Host.Device.ofExcept, Prog.wp_pure, Prog.post_ok, Prog.wp_bind]
  refine wp_send h1 (hsame.unseen.trans hunseen)
    (fun e w2 hlinked hshown => ⟨hlinked, hshown.trans hsame.shown⟩) fun w2 hsane hset hshown hunseen2 => ?_
  rw [Prog.post_ok, Prog.wp_bind]
  refine wp_getPinConfig hsane.moved.device.inv
    (fun e world => ⟨hset.failed hsane hunseen2 world, hshown.trans hsame.shown⟩)
    fun c world hc => ?_
  rw [Prog.post_ok]
  obtain ⟨hwrote, hnot⟩ := (hset.moved hsane).readBack hsane.moved
  have hfailed : ¬ (w2.moved.device.engine.requestId = id ∧
      w2.moved.device.engine.result = Firmware.resultOk ∧
      w2.moved.device.engine.config = config.toFirmware) →
      { w2.moved.readBack with world }.Linked stale awaiting known ∧ w2.shown = w.shown := fun h =>
    ⟨(hnot h).world world, hshown.trans hsame.shown⟩
  split_ifs with hid' hresult hconfig
  · exact hfailed fun h => hid' h.1
  · exact hfailed fun h => hresult (congrArg Host.ResultCode.mk h.2.1)
  · exact hfailed fun h => hconfig (PinConfig.toFirmware_inj.mp (hc.trans h.2.2))
  · refine ⟨?_, hshown.trans hsame.shown⟩
    rw [← not_not.mp hconfig, hc]
    exact hwrote.world world

/-- A report that a watcher with this knowledge just got. -/
structure Arrived (stale : U16 → Bool) (awaiting : Bool) (known : Firmware.PinConfig) (isStale tells : Bool)
    (w : Cable ω) : Prop where
  sane : w.Sane
  sent : w.sent = false
  seen : w.timely = true → w.unseen = false → known = w.line.config
  arrival : w.timely = true → w.line.Arrival stale awaiting w.unseen known isStale tells w.shown

omit [World ω] in
theorem Arrived.world {isStale tells : Bool} (h : w.Arrived stale awaiting known isStale tells) (world : ω) :
    { w with world }.Arrived stale awaiting known isStale tells :=
  ⟨h.sane.of rfl rfl id, h.sent, h.seen, h.arrival⟩

/-- What a watcher with this knowledge reads. -/
theorem wp_readRaw (timeout : Option ℕ) {Q : Except Stop (List U8) → Host.Device × Cable ω → Prop}
    (h : w.Linked stale awaiting known)
    (hfail : ∀ e w', w'.Linked stale awaiting known → Q (.error (.error e)) (d, w'))
    (hnone : ∀ w', w'.Linked stale awaiting known → Q (.ok []) (d, w'))
    (hreport : ∀ (r : Firmware.Sent) w', Firmware.Device.OwnReport r.status →
      r.status.monitored = Firmware.inputMask r.published → w'.shown = r.published →
      (∀ stale', (stale r.status.seq = true → stale' = stale) →
        w'.Arrived stale' awaiting known (stale r.status.seq) r.tells) →
      Q (.ok (reportIdStatus :: Firmware.encodeStatus r.status)) (d, w')) :
    (Host.Device.readRaw timeout).wp Q (d, w) := by
  have hmoved := h.moved
  refine wp_read timeout (fun e world => hfail e _ (hmoved.world world))
    (fun world => hnone _ (hmoved.world world)) fun r reports world hunread => ?_
  have hmem : r ∈ w.moved.device.sent := List.mem_of_mem_drop (hunread ▸ List.mem_cons_self)
  have hnext : w.moved.next + 1 ≤ w.moved.device.sent.length := by
    have hlength := congrArg List.length hunread
    rw [line, Firmware.Device.line, List.length_drop, List.length_cons] at hlength
    omega
  have hrest : w.moved.device.sent.drop (w.moved.next + 1) = reports := by
    rw [← List.tail_drop]
    exact congrArg List.tail hunread
  have hpopped : w.moved.device.line (w.moved.next + 1) = { w.moved.line with unread := reports } := by
    simp only [line, Firmware.Device.line, hrest]
  refine hreport r _ (hmoved.sane.device.numbered.own r hmem) (hmoved.sane.device.monitored r hmem) rfl
    fun stale' hstale => ⟨⟨hmoved.sane.device, hnext, fun ht => hmoved.sane.single ht⟩, hmoved.sent,
      hmoved.seen, ?_⟩
  intro ht
  have hphase := (hmoved.phase ht).read hunread hstale
  rw [← hpopped] at hphase
  exact hphase

omit [World ω] in
/-- Up to 32768 reports before an answer are stale once it is the reference. -/
theorem stale_unread (hsane : w.Sane) (nowUs : U64) (hlength : w.line.unread.length ≤ 0x8000)
    {r : Firmware.Sent} (hr : r ∈ w.line.unread) :
    r.status.seq - (w.device.engine.getStatus nowUs).seq = 0 ∨
      0x8000 ≤ r.status.seq - (w.device.engine.getStatus nowUs).seq := by
  have hanswered : (w.device.engine.getStatus nowUs).seq = BitVec.ofNat 16 (w.device.sent.length - 1) :=
    hsane.device.answered
  obtain ⟨i, hi, rfl⟩ := List.mem_iff_getElem.mp hr
  have hlen : w.line.unread.length = w.device.sent.length - w.next := List.length_drop
  have hget : w.device.sent[w.next + i]? = some w.line.unread[i] := by
    rw [← List.getElem?_drop]
    exact List.getElem?_eq_getElem hi
  rw [hsane.device.numbered.seq _ _ hget, hanswered]
  bv_omega

/-- The answer to a status request, when the watcher takes it as its reference. -/
theorem wp_requestStatus {Q : Except Stop StatusReport → Host.Device × Cable ω → Prop} (hsane : w.Sane)
    (hsent : w.sent = false) (hseen : w.timely = true → w.unseen = false → known = w.line.config)
    (hfail : ∀ e w', w'.Sane → w'.sent = false → Q (.error (.error e)) (d, w'))
    (hanswer : ∀ (report : StatusReport) w', report.reason = Firmware.reasonHostRequest →
      report.monitored = Firmware.inputMask w'.shown → (∀ conn : Host.Connection,
        conn.snapshotSeq = (if report.seq ≠ 0 ∧ report.moreEvents = false then some report.seq else none) →
        ∀ awaiting, w'.Arrived conn.isStale awaiting known false false) → Q (.ok report) (d, w')) :
    Host.Device.requestStatus.wp Q (d, w) := by
  have hmoved := hsane.moved
  refine wp_answer (fun e world => hfail e _ (hmoved.of rfl rfl id) hsent) fun world => ?_
  let status := w.moved.device.engine.getStatus w.pause.nowUs
  refine hanswer (hostReport status) _ rfl hmoved.device.inv.monitored fun conn hconn awaiting => ?_
  have htimely : ({ w.moved.asked w.pause.nowUs with world } : Cable ω).timely = true → w.timely = true ∧
      (w.moved.line.changing = false ∧ w.unseen = false) ∧
        ((∀ r ∈ w.moved.line.unread, r.published.Fits w.moved.line.config) ∨
          w.moved.refers w.pause.nowUs = true) := by
    intro ht
    simpa [asked, moved, and_assoc] using ht
  refine ⟨hmoved.of rfl rfl fun ht => (htimely ht).1, hsent, fun ht hunseen => ?_, fun ht => ?_⟩
  · exact (hseen (htimely ht).1 hunseen).trans (config_moved hsane).symm
  obtain ⟨ht, ⟨hchanging, hunseen⟩, hreports⟩ := htimely ht
  refine .steady ⟨hchanging, ?_⟩ (fun _ => hmoved.device.settles hchanging)
    fun _ => (hseen ht hunseen).trans (config_moved hsane).symm
  rcases hreports with hfits | hrefers
  · exact Line.Usable.of_fits hfits
  · refine Line.Usable.of_stale fun r hr => ?_
    obtain ⟨⟨hseq, hcount⟩, hlength⟩ : (status.seq ≠ 0 ∧ w.moved.device.engine.queue.count = 0) ∧
        w.moved.line.unread.length ≤ 0x8000 := by
      simpa [refers, status] using hrefers
    have hmore : (hostReport status).moreEvents = false := by
      rw [moreEvents_answer, hcount]
      rfl
    rw [if_pos ⟨hseq, hmore⟩] at hconn
    rw [Host.Connection.isStale, hconn]
    exact decide_eq_true (stale_unread hmoved w.pause.nowUs hlength hr)

/-- A moment does not become a good one later. -/
theorem unmoved_timely (w₀ : Cable ω) :
    Host.Device.Unmoved fun w : Cable ω => w.timely = true → w₀.timely = true where
  write report w h := by
    simp only [World.write]
    split <;> exact h
  getFeatureReport reportId w h := by
    rcases getFeatureReport_cases reportId w with ⟨e, world, hget⟩ | ⟨payload, world, -, hget⟩
    · rw [hget]
      exact h
    · rw [hget]
      dsimp only
      split
      · exact fun ht => h (Bool.and_eq_true_iff.mp ht).1
      · exact h
  sendFeatureReport report w h := by
    simp only [World.sendFeatureReport]
    split
    · dsimp only
      split
      · exact fun ht => h (Bool.and_eq_true_iff.mp ht).1
      · exact h
    · exact fun ht => h (Bool.and_eq_true_iff.mp ht).1
  getInputReport reportId w h := by
    simp only [World.getInputReport]
    split
    · exact h
    · split
      · exact fun ht => h (Bool.and_eq_true_iff.mp ht).1
      · exact h

theorem timely_readRaw (w₀ : Cable ω) (timeout : Option ℕ) :
    Prog.Keeps (fun s => s.2.timely = true → w₀.timely = true)
    (Host.Device.readRaw timeout : Io (Cable ω) (List U8)) := by
  refine Host.Device.Unmoved.transport (I := fun w : Cable ω => w.timely = true → w₀.timely = true)
    fun w h => ?_
  simp only [World.read]
  split <;> exact h

end Access

end Cable

end Hidpin.System
