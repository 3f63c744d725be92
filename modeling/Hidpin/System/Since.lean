import Hidpin.Firmware.Ongoing
import Hidpin.System.Current

/-! What a device keeps since a watcher opened it that does not configure it, and what the accesses of the
    watcher do to it: it does something by itself, and its oldest report may be read. -/

namespace Hidpin.Firmware.Device
open Engine

/-- A report that tells nothing. -/
def noStatus : Status where
  seq := 0
  reason := 0
  flags := 0
  monitored := 0
  outputs := 0
  levels := 0
  timestampUs := 0
  events := []

/-- What the device keeps from the moment on at which it had sent `k` reports, while its configuration stays.
    The reports from number `m` on go on from `ref`. -/
structure Since (coherent : Prop) (k m : ℕ) (ref : Status) (config : PinConfig) (d : Device) : Prop where
  orderly : d.Orderly
  consistent : d.Consistent
  settled : d.engine.configChanged = false
  configured : d.engine.config = config
  from_le : k ≤ m
  le_length : m ≤ d.sent.length
  inputs : ∀ r ∈ d.sent.drop k, ∀ n, hasBit r.status.monitored n = true →
    modeIsInput (config.mode n) = true
  tells : coherent → d.Lossless k → d.Tells (ref :: (d.sent.drop m).map Sent.status)
  silent : d.Lossless k → d.Silent k

variable {coherent : Prop} {k m : ℕ} {ref : Status} {config : PinConfig} {d : Device}

namespace Since

/-- The pins that are monitored are inputs of the configuration. -/
theorem monitored (h : Since coherent k m ref config d) {n : Gpio}
    (hn : hasBit d.engine.monitored n = true) : modeIsInput (config.mode n) = true := by
  rw [h.consistent.inv.monitored, hasBit_inputMask] at hn
  have hsame : d.published.mode n = d.engine.config.mode n := h.consistent.settles h.settled n hn
  rwa [← h.configured, ← hsame]

theorem step (h : Since coherent k m ref config d) {op : Op}
    (hop : ∀ payload nowUs, op ≠ .setPinConfig payload nowUs) :
    Since coherent k m ref config (d.step op) ∧ ((d.step op).Lossless k → d.Lossless k) := by
  have hk : k ≤ d.sent.length := h.from_le.trans h.le_length
  have hlossless : (d.step op).Lossless k → d.Lossless k := lossless_of_step h.orderly.inv hk
  have hconfig : (d.step op).engine.config = d.engine.config :=
    congrArg (fun f => PinConfigReport.config f.2) (d.features_step hop)
  refine ⟨⟨orderly_step d op h.orderly, d.consistent_step op h.consistent,
    configChanged_own h.settled hop, hconfig.trans h.configured, h.from_le, ?_, fun r hr n hn => ?_,
    fun hcoherent hl => ?_, fun hl => ?_⟩, hlossless⟩
  · rw [sent_step, List.length_append]
    exact h.le_length.trans (Nat.le_add_right _ _)
  · rw [sent_step, List.drop_append_of_le_length hk] at hr
    rcases List.mem_append.mp hr with hr | hr
    · exact h.inputs r hr n hn
    · obtain ⟨nowUs, accepted, -, rfl, -, -⟩ := committed_eq_some (Option.mem_toList.mp hr)
      exact h.monitored hn
  · have htells := tells_step h.orderly (h.tells hcoherent (hlossless hl)) hop hl.1
    rwa [List.cons_append, ← List.map_append, ← List.drop_append_of_le_length h.le_length,
      ← sent_step] at htells
  · exact silent_step h.orderly h.settled hop hk hl (h.silent (hlossless hl))

theorem of_coherent (h : Since coherent k m ref config d) (hcoherent : coherent) :
    Since True k m ref config d :=
  { h with tells := fun _ => h.tells hcoherent }

end Since

/-- A device that was just opened. -/
theorem Since.opened (h : d.Orderly) (hconsistent : d.Consistent)
    (hsettled : d.engine.configChanged = false) :
    Since d.Continuing d.sent.length d.sent.length noStatus d.engine.config d where
  orderly := h
  consistent := hconsistent
  settled := hsettled
  configured := rfl
  from_le := le_rfl
  le_length := le_rfl
  inputs r hr := by
    rw [List.drop_length] at hr
    cases hr
  tells hcontinues hl := by
    rw [List.drop_length]
    refine ⟨⟨hsettled, hl.1, hcontinues⟩, List.isChain_singleton _, fun s hs => ?_⟩
    obtain rfl := Option.some.inj hs
    have hnone : ∀ n, hasBit noStatus.monitored n = false := by decide
    exact ⟨fun n hn => absurd (hn.symm.trans (hnone n)) (by decide), fun _ => hnone⟩
  silent _ _ := Or.inl List.drop_length

/-- A device that answered when no event was queued: the reports after the answer go on from it. -/
theorem Since.answered (h : Since coherent k m ref config d) (hempty : d.engine.queue.toList = [])
    (nowUs : U64) : Since True k d.sent.length (d.engine.getStatus nowUs) config d where
  orderly := h.orderly
  consistent := h.consistent
  settled := h.settled
  configured := h.configured
  from_le := h.from_le.trans h.le_length
  le_length := le_rfl
  inputs := h.inputs
  tells _ hl := by
    rw [List.drop_length]
    refine ⟨ongoing_of_empty h.orderly h.settled hl.1 hempty, List.isChain_singleton _, fun s hs => ?_⟩
    obtain rfl := Option.some.inj hs
    exact left_getStatus h.orderly h.settled hempty nowUs
  silent := h.silent

/-- While no report carries an event, all of them show what the answer does. -/
theorem Since.repeated (h : Since coherent k m ref config d) (hl : d.Lossless k)
    (hempty : d.engine.queue.toList = []) (nowUs : U64)
    (hnone : ∀ r ∈ d.sent.drop k, r.status.events = [] ∧ r.status.monitored = d.engine.monitored) {r : Sent}
    (hr : r ∈ d.sent.drop k) {n : Gpio} (hn : hasBit d.engine.monitored n = true) :
    hasBit r.status.levels n = hasBit (d.engine.getStatus nowUs).levels n := by
  rcases h.silent hl fun r hr => (hnone r hr).1 with hnil | ⟨-, hleft⟩
  · rw [hnil] at hr
    cases hr
  · rw [← ((hleft r hr).reported n (by rw [(hnone r hr).2]; exact hn)).2]
    exact ((left_getStatus h.orderly h.settled hempty nowUs).reported n hn).2

end Hidpin.Firmware.Device

namespace Hidpin.System
open Firmware.Device (Lossless Since)
open Firmware (Status)
open Host (Stop World PinConfigReport StatusReport reportIdStatus)
open Lib Lib.Prog

namespace Cable
variable {ω : Type} {w w' : Cable ω}

/-- The device did something by itself, and as many reports were read. -/
def Moved (w w' : Cable ω) : Prop :=
  ∃ ops : List Own, w'.device = ops.foldl (fun d op => d.step op.val) w.device ∧ w'.next = w.next

theorem moved_moved (w : Cable ω) : w.Moved w.moved := ⟨w.pause.ops, rfl, rfl⟩

theorem Moved.trans {w'' : Cable ω} (h : w.Moved w') (h' : w'.Moved w'') : w.Moved w'' := by
  obtain ⟨ops, hdevice, hnext⟩ := h
  obtain ⟨ops', hdevice', hnext'⟩ := h'
  exact ⟨ops ++ ops', by rw [hdevice', hdevice, List.foldl_append], hnext'.trans hnext⟩

theorem Moved.of_same (h : w.Moved w') {w'' : Cable ω} (hdevice : w''.device = w'.device)
    (hnext : w''.next = w'.next) : w.Moved w'' := by
  obtain ⟨ops, hdevice', hnext'⟩ := h
  exact ⟨ops, hdevice.trans hdevice', hnext.trans hnext'⟩

theorem moved_refl (w : Cable ω) : w.Moved w := ⟨[], rfl, rfl⟩

theorem Moved.inv (h : w.Moved w') (hinv : w.device.Inv) : w'.device.Inv := by
  obtain ⟨ops, hdevice, -⟩ := h
  rw [hdevice]
  exact Lib.foldl_preserves (P := Firmware.Device.Inv) (fun d op hd => d.step_inv op.val hd) ops hinv

section Access
variable [World ω] {d : Host.Device}

/-- A read of the configuration fails, or it gives what the device has. -/
theorem moves_getPinConfig {Q : Except Stop PinConfigReport → Host.Device × Cable ω → Prop}
    (hinv : w.device.Inv) (hfail : ∀ e w', w.Moved w' → Q (.error (.error e)) (d, w'))
    (hread : ∀ (report : PinConfigReport) d' w', w.Moved w' →
      report.config.toFirmware = w'.device.engine.config → Q (.ok report) (d', w')) :
    Host.Device.getPinConfig.wp Q (d, w) :=
  wp_getPinConfig (w.moved_moved.inv hinv) (fun e _ => hfail e _ (w.moved_moved.of_same rfl rfl))
    fun _ _ hc => hread _ _ _ (w.moved_moved.of_same rfl rfl) hc

theorem moves_readInfo : Host.Device.readInfo.wp (fun _ s => w.Moved s.2) (d, w) := by
  have hfeature : ∀ d, (Host.Device.getFeature Host.reportIdDeviceInfo).wp
      (fun _ s => w.Moved s.2) (d, w) := fun d => by
    refine wp_getFeature (Q := fun _ s => w.Moved s.2) (fun _ _ => ?_) fun _ _ _ => ?_
    · exact w.moved_moved.of_same rfl rfl
    · exact w.moved_moved.of_same rfl rfl
  unfold Host.Device.readInfo
  rw [wp_bind, wp_gets, post_ok]
  split
  · exact w.moved_refl
  · refine wp_seq (hfeature d) (fun _ s hs => ?_) fun _ _ hs => hs
    refine wp_seq (R := fun _ s => w.Moved s.2) ?_ (fun info s hs => ?_) fun _ _ hs => hs
    · exact Host.Device.Unmoved.ofExcept (I := fun s => w.Moved s) _ s hs
    · split
      · exact hs
      · exact hs

/-- The answer to a status request. -/
theorem moves_requestStatus {Q : Except Stop StatusReport → Host.Device × Cable ω → Prop}
    (hfail : ∀ e w', w.Moved w' → Q (.error (.error e)) (d, w'))
    (hanswer : ∀ nowUs w', w.Moved w' →
      Q (.ok (hostReport (w'.device.engine.getStatus nowUs))) (d, w')) :
    Host.Device.requestStatus.wp Q (d, w) :=
  wp_answer (fun e _ => hfail e _ (w.moved_moved.of_same rfl rfl)) fun world =>
    hanswer w.pause.nowUs { w.moved.asked w.pause.nowUs with world } (w.moved_moved.of_same rfl rfl)

/-- A read fails, or there is nothing yet, or it gives the oldest report. -/
theorem moves_readRaw (timeout : Option ℕ) {Q : Except Stop (List U8) → Host.Device × Cable ω → Prop}
    (hfail : ∀ e w', w.Moved w' → Q (.error (.error e)) (d, w'))
    (hnone : ∀ w', w.Moved w' → Q (.ok []) (d, w'))
    (hreport : ∀ (r : Firmware.Sent) w' w'', w.Moved w' → w'.device.sent[w'.next]? = some r →
      w''.device = w'.device → w''.next = w'.next + 1 →
      Q (.ok (reportIdStatus :: Firmware.encodeStatus r.status)) (d, w'')) :
    (Host.Device.readRaw timeout).wp Q (d, w) := by
  refine wp_read timeout (fun e _ => hfail e _ (w.moved_moved.of_same rfl rfl))
    (fun _ => hnone _ (w.moved_moved.of_same rfl rfl)) fun r reports world hunread => ?_
  refine hreport r w.moved _ w.moved_moved ?_ rfl rfl
  rw [← List.head?_drop]
  exact congrArg List.head? hunread

/-- An output command is one more thing that happens to the device. -/
theorem moved_write (report : List U8) : w.Moved (World.write report w).2 := by
  have hmoved := w.moved_moved
  simp only [World.write]
  rcases World.write report w.world with ⟨e | _, world⟩
  · exact hmoved.of_same rfl rfl
  · dsimp only
    split
    · refine hmoved.trans ⟨[⟨.output report.tail, nofun⟩], rfl, rfl⟩
    · exact hmoved.of_same rfl rfl

theorem moves_setOutputs (levels : List (U8 × Bool)) :
    (Host.Device.setOutputs levels).wp (fun _ s => w.Moved s.2) (d, w) :=
  Prog.Keeps.bind (Host.Device.Unmoved.ofExcept (I := fun s => w.Moved s) _)
    (fun _ => Host.Device.Unmoved.transport (I := fun s => w.Moved s) fun _ h => h.trans (moved_write _))
    (d, w) w.moved_refl

end Access

/-! ### The reports that were read -/

section Heard
variable {coherent : Prop} {k m : ℕ} {ref : Status} {config : Firmware.PinConfig}

theorem Moved.next_eq (h : w.Moved w') : w'.next = w.next := by
  obtain ⟨-, -, hnext⟩ := h
  exact hnext

/-- What the device does by itself only adds reports. -/
theorem Moved.since (h : w.Moved w') (hs : Since coherent k m ref config w.device) :
    Since coherent k m ref config w'.device ∧ (w'.device.Lossless k → w.device.Lossless k) ∧
      ∃ new, w'.device.sent = w.device.sent ++ new := by
  obtain ⟨ops, hdevice, -⟩ := h
  rw [hdevice]
  refine Lib.foldl_preserves (P := fun d : Firmware.Device => Since coherent k m ref config d ∧
    (d.Lossless k → w.device.Lossless k) ∧ ∃ new, d.sent = w.device.sent ++ new) ?_ ops
    ⟨hs, id, [], (List.append_nil _).symm⟩
  rintro d ⟨op, hop⟩ ⟨hd, hlossless, new, hnew⟩
  obtain ⟨hd', hlossless'⟩ := hd.step hop
  refine ⟨hd', fun hl => hlossless (hlossless' hl), new ++ (d.committed op).toList, ?_⟩
  rw [Firmware.Device.sent_step, hnew, List.append_assoc]

/-- The reports from number `m` on that were read. -/
def heard (m : ℕ) (w : Cable ω) : List Status :=
  ((w.device.sent.take w.next).drop m).map Firmware.Sent.status

theorem heard_moved (h : w.Moved w') {new : List Firmware.Sent}
    (hnew : w'.device.sent = w.device.sent ++ new) (hread : w.next ≤ w.device.sent.length) :
    w'.heard m = w.heard m := by
  rw [heard, heard, h.next_eq, hnew, List.take_append_of_le_length hread]

theorem heard_nil (h : w.next ≤ m) : w.heard m = [] := by
  rw [heard, List.drop_of_length_le, List.map_nil]
  exact (List.length_take_le _ _).trans h

/-- Reading the next report. -/
theorem heard_succ {r : Firmware.Sent} (hr : w.device.sent[w.next]? = some r)
    (hdevice : w'.device = w.device) (hnext : w'.next = w.next + 1) (hm : m ≤ w.next) :
    w'.heard m = w.heard m ++ [r.status] := by
  have hlt : w.next < w.device.sent.length := (List.getElem?_eq_some_iff.mp hr).1
  have hlen : m ≤ (w.device.sent.take w.next).length := by
    rw [List.length_take, min_eq_left hlt.le]
    exact hm
  rw [heard, hdevice, hnext, List.take_add_one, hr, Option.toList_some,
    List.drop_append_of_le_length hlen, List.map_append]
  rfl

end Heard

end Cable

end Hidpin.System
