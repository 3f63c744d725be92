import Hidpin.Firmware.Sequel
import Hidpin.Host.Sequel
import Hidpin.System.Missed

/-! From the queue of the device to the changes that a watcher tells. Reports that tell how the pins went on
    reach the watcher as reports that go on from what it knows, so it tells their events and infers
    nothing. -/

namespace Hidpin.System
open Host Lib
open Firmware (Sent)

theorem covers_hostReport (s : Firmware.Status) (n : Firmware.Gpio) :
    (hostReport s).covers (Host.Gpio.toU8 n) = Firmware.hasBit s.monitored n := by
  have hlt : decide ((Host.Gpio.toU8 n).toNat < gpioCount) = true := by
    rw [Host.toNat_toU8]
    exact decide_eq_true n.isLt
  rw [StatusReport.covers, hlt, Bool.true_and, StatusReport.isMonitored, Host.maskBit_toU8,
    Firmware.hasBit_eq]
  rfl

theorem level_hostReport (s : Firmware.Status) (n : Firmware.Gpio) :
    (hostReport s).level (Host.Gpio.toU8 n) = Firmware.hasBit s.levels n := by
  rw [StatusReport.level, Host.maskBit_toU8, Firmware.hasBit_eq]
  rfl

theorem levelsOf_hostReport (s : Firmware.Status) (n : Firmware.Gpio) :
    levelsOf (hostReport s).events (Host.Gpio.toU8 n) = s.levelsOf n := by
  rw [levelsOf, hostReport, List.filter_map, List.map_map]
  rfl

/-- A watcher sees the same of two reports as the device. -/
theorem goesOn_hostReport {s s' : Firmware.Status} (h : s.GoesOn s') :
    (hostReport s).GoesOn (hostReport s') := by
  intro gpio hcovers
  have hlt : gpio.toNat < gpioCount := of_decide_eq_true (Bool.and_eq_true_iff.mp hcovers).1
  obtain ⟨n, rfl⟩ : ∃ n : Firmware.Gpio, Host.Gpio.toU8 n = gpio :=
    ⟨⟨gpio.toNat, hlt⟩, BitVec.eq_of_toNat_eq (Host.toNat_toU8 _)⟩
  rw [covers_hostReport] at hcovers
  rw [covers_hostReport, level_hostReport, level_hostReport, levelsOf_hostReport]
  exact h n hcovers

theorem plain_hostReport {s : Firmware.Status} (hown : Firmware.Device.OwnReport s)
    (h : Firmware.hasFlag s.reason Firmware.reasonConfigChanged = false) : (hostReport s).plain = true := by
  have hbits : ∀ b : U8, Firmware.hasFlag b Firmware.reasonConfigChanged = false →
      contains b Host.Reason.configChanged = false := by decide
  have hchanged : contains (hostReport s).reason Host.Reason.configChanged = false := hbits _ h
  rw [StatusReport.plain, not_hostRequest hown, hchanged]
  rfl

theorem reportIn_own {s : Firmware.Status} (hown : Firmware.Device.OwnReport s) :
    Tally.reportIn (reportIdStatus :: Firmware.encodeStatus s) = some (hostReport s) := by
  have hlen : (reportIdStatus :: Firmware.encodeStatus s).length = Host.reportLen := by
    rw [List.length_cons, length_own hown]
    rfl
  have hlong : ¬ (reportIdStatus :: Firmware.encodeStatus s).length < Host.reportLen := by
    rw [hlen]; exact lt_irrefl _
  have hid : ¬ Host.byteAt (reportIdStatus :: Firmware.encodeStatus s) 0 ≠ reportIdStatus := not_not.mpr rfl
  rw [Tally.reportIn, if_neg (not_or.mpr ⟨hlong, hid⟩), List.take_of_length_le hlen.le, List.tail_cons,
    decode_own hown]
  rfl

/-- The reads of a watcher that bring it these reports. -/
def Brings (heard : List (List U8 × Instant)) (reports : List Sent) : Prop :=
  heard.map Prod.fst = reports.map fun r => reportIdStatus :: Firmware.encodeStatus r.status

/-- In every run of the device, a watcher that listens on its connection, knows a report which left nothing
    queued, and reads the ones after it, none of which tells of a changed configuration or of a loss and the
    last of which leaves nothing queued, tells exactly their events, in their order, and then knows the last
    one. -/
theorem changes_are_events {ω : Type} [World ω] (info : Firmware.DeviceInfo) (startUs : U64)
    (ops : List Firmware.Op) (past : List Sent) (r : Sent) (reports later : List Sent)
    (hsent : (Lib.run Firmware.Device.step (.start info startUs) ops).sent = past ++ r :: (reports ++ later))
    (hmore : Firmware.hasFlag r.status.flags Firmware.flagMoreEvents = false)
    (hplain : ∀ s ∈ reports, s.status.plain = true)
    (hlast : ∀ s ∈ reports.getLast?, Firmware.hasFlag s.status.flags Firmware.flagMoreEvents = false)
    (c : Ctx ω) (heard : List (List U8 × Instant)) (hheard : Brings heard reports) (hlistens : Listens c)
    (hknows : Knows (hostReport r.status) c) :
    ((Watch.hear heard).exec c).1 = .ok () ∧
      changes ((Watch.hear heard).exec c).2.emitted = changes c.emitted ++
        c.loop.story (hostReport r.status) (reports.map fun r => hostReport r.status) ∧
      Knows (hostReport (reports.getLastD r).status) ((Watch.hear heard).exec c).2 := by
  have hown : ∀ s ∈ reports, Firmware.Device.OwnReport s.status := fun s hs => by
    refine (Firmware.Device.numbered_run info startUs ops).own s ?_
    rw [hsent]
    simp [hs]
  have hchain := Firmware.Device.goesOn_from ops (Firmware.Device.orderly_start info startUs)
    ((Firmware.Device.sent_run _ ops).symm.trans hsent) hmore hplain hlast
  have hdata : heard.map (fun x => Tally.reportIn x.1) =
      (reports.map fun r => hostReport r.status).map some := by
    rw [← Function.comp_def Tally.reportIn, ← List.map_map, hheard, List.map_map, List.map_map]
    exact List.map_congr_left fun s hs => reportIn_own (hown s hs)
  have hwp := Watch.wp_hear _ hdata hlistens hknows (by
      simp only [List.mem_map, forall_exists_index, and_imp, forall_apply_eq_imp_iff₂]
      exact fun s hs => plain_hostReport (hown s hs) (Firmware.Status.plain_iff.mp (hplain s hs)).1) (by
      exact (List.isChain_map fun r : Sent => hostReport r.status).mpr
        (hchain.imp fun _ _ h => goesOn_hostReport h))
  unfold Prog.wp at hwp
  rcases hexec : (Watch.hear heard).exec c with ⟨e | a, c'⟩
  · rw [hexec] at hwp
    exact hwp.elim
  · rw [hexec] at hwp
    refine ⟨rfl, hwp.changes, ?_⟩
    have hknows' := hwp.knows
    rw [List.getLastD_eq_getLast?, List.getLast?_map] at hknows'
    rw [List.getLastD_eq_getLast?]
    cases hend : reports.getLast? <;> rw [hend] at hknows' <;> exact hknows'

/-- A watcher on its first connection, which has just taken the levels of a report. -/
def informed (report : StatusReport) : Ctx Script :=
  let c := (Watcher.start ⟨none, none, [], 1⟩ (⟨[], [], [], []⟩ : Script)).ctx
  { c with
    loop :=
      { c.loop with
        conn := some ⟨.new "E6614103E7" 0 0, .empty, none, none, false⟩
        known gpio := if report.covers gpio then some (report.level gpio != c.loop.isActiveLow gpio)
          else none } }

theorem listens_informed (report : StatusReport) : Listens (informed report) := ⟨_, rfl, rfl, rfl⟩

theorem knows_informed (report : StatusReport) : Knows report (informed report) := fun _ => rfl

/-- The reports on eight inputs that fall, the first of which rises again. -/
def fallen : List Sent :=
  (Lib.run Firmware.Device.step (.start (Firmware.Device.sampleInfo 0xFF) 0) Firmware.Device.eightFalls).sent

theorem fallen_ne_nil : fallen ≠ [] := by decide +kernel

theorem changes_are_events_run :
    (changes
      ((Watch.hear (fallen.tail.map fun r => (reportIdStatus :: Firmware.encodeStatus r.status, 0))).exec
        (informed (hostReport (fallen.head fallen_ne_nil).status))).2.emitted).map
          (fun change => (change.gpio.toNat, change.level, change.inferred)) =
      [(0, false, false), (1, false, false), (2, false, false), (3, false, false), (4, false, false),
        (5, false, false), (6, false, false), (7, false, false), (0, true, false)] := by
  have hmore : ∀ r ∈ fallen.head?, Firmware.hasFlag r.status.flags Firmware.flagMoreEvents = false := by
    decide +kernel
  have hsent : fallen = [] ++ fallen.head fallen_ne_nil :: (fallen.tail ++ []) := by simp
  have htold :=
    (changes_are_events (Firmware.Device.sampleInfo 0xFF) 0 Firmware.Device.eightFalls [] _ _ [] hsent
      (hmore _ (List.head?_eq_some_head _)) (by decide +kernel) (by decide +kernel) (informed _)
      (fallen.tail.map fun r => (reportIdStatus :: Firmware.encodeStatus r.status, 0))
      (by rw [Brings, List.map_map, Function.comp_def]) (listens_informed _) (knows_informed _)).2.1
  rw [htold]
  decide +kernel

end Hidpin.System
