import Hidpin.Firmware.Order
import Hidpin.System.Missed

/-! The time of a change, from the debouncer of the device to the host. The engine splits it into the
    timestamp of the report and an age of 32 bits; the host puts it together again. -/

namespace Hidpin.Firmware.Device
open Engine

/-- How many events the reports handed over carried. -/
def eventsSent (d : Device) : ℕ := (d.sent.map fun r => r.status.events.length).sum

/-- The events the next report carries, among those recorded when they were confirmed. -/
def nextEvents (d : Device) : List EdgeEvent :=
  ((kept d.engine.history).drop d.eventsSent).take eventsPerReport

theorem nextEvents_eq {d : Device} (h : d.Delivered) : d.nextEvents = d.engine.carried := by
  obtain ⟨chunks, hchunks, hlaw⟩ := h
  have hlen : chunks.flatten.length = d.eventsSent := by
    rw [List.length_flatten, eventsSent]
    clear hlaw
    generalize d.sent = sent at hchunks ⊢
    induction hchunks with
    | nil => rfl
    | cons hr _ ih =>
      rw [List.map_cons, List.map_cons, List.sum_cons, List.sum_cons, ih, hr, List.length_map]
  rw [nextEvents, ← hlaw, ← hlen, List.drop_left, carried]

end Hidpin.Firmware.Device

namespace Hidpin.System
open Firmware (Sent InTime eventAge saturatedUs)

/-- The host reads the start of a change back from its age, unless that is saturated. -/
theorem startUs_eventAge {nowUs startUs : U64} (h : startUs.toNat ≤ nowUs.toNat) (gpio : U8) (level : Bool) :
    Host.EdgeEvent.startUs ⟨gpio, level, eventAge nowUs startUs⟩ nowUs =
      if nowUs.toNat - startUs.toNat < 2 ^ 32 - 1 then some startUs else none := by
  have hage := Firmware.toNat_eventAge h
  have hstart := Firmware.toNat_sub_eventAge h
  have hmax : Host.saturatedAgeUs.toNat = 2 ^ 32 - 1 := by decide
  have hsaturated : Host.EdgeEvent.saturated ⟨gpio, level, eventAge nowUs startUs⟩ =
      decide (¬ nowUs.toNat - startUs.toNat < 2 ^ 32 - 1) := by
    rw [Host.EdgeEvent.saturated, decide_eq_decide, ← BitVec.toNat_inj, hmax, hage, saturatedUs]
    omega
  rw [Host.EdgeEvent.startUs, hsaturated]
  by_cases hrecent : nowUs.toNat - startUs.toNat < 2 ^ 32 - 1
  · rw [if_neg (by simpa using hrecent), if_pos hrecent]
    refine congrArg some (BitVec.eq_of_toNat_eq ?_)
    rw [hstart, saturatedUs]
    omega
  · rw [if_pos (by simpa using hrecent), if_neg hrecent]

/-- The change times of a report that was handed over, decoded on the host, are those recorded when the
    changes were confirmed, or unknown when they lie 2^32 - 1 µs or more before the report. -/
theorem change_times (info : Firmware.DeviceInfo) (startUs : U64) (before : List Firmware.Op)
    (op : Firmware.Op) (r : Sent) (hord : InTime (before ++ [op]))
    (hr : (Lib.run Firmware.Device.step (.start info startUs) before).committed op = some r) :
    let recorded := (Lib.run Firmware.Device.step (.start info startUs) before).nextEvents
    (∀ ev ∈ recorded, ev.startUs.toNat ≤ r.nowUs.toNat) ∧
    ∃ report, Host.decodeStatus (Firmware.encodeStatus r.status) = .ok report ∧
      report.timestampUs = r.nowUs ∧
      report.events.map (fun ev => (ev.gpio, ev.level, ev.startUs report.timestampUs)) =
        recorded.map fun ev => (ev.gpio.toU8, ev.level,
          if r.nowUs.toNat - ev.startUs.toNat < 2 ^ 32 - 1 then some ev.startUs else none) := by
  intro recorded
  have hnumbered := Firmware.Device.numbered_run info startUs before
  have hdelivered := (Firmware.Device.events_delivered_once info startUs before).1
  have hrecorded : recorded = _ := Firmware.Device.nextEvents_eq hdelivered
  obtain ⟨nowUs, accepted, rfl, rfl, -, -⟩ := Firmware.Device.committed_eq_some hr
  have hpast : ∀ ev ∈ recorded, ev.startUs.toNat ≤ nowUs.toNat := by
    intro ev hev
    rw [hrecorded] at hev
    obtain ⟨c, hc, rfl⟩ := Firmware.Device.queued_confirmed hdelivered (List.mem_of_mem_take hev)
    exact (Firmware.Device.heldBy_run info startUs (hord.by_last rfl)).events c hc
  refine ⟨hpast, hostReport (Firmware.Engine.report _ nowUs),
    decode_own (Firmware.Device.ownReport hnumbered.reasons nowUs), rfl, ?_⟩
  rw [hrecorded] at hpast ⊢
  simp only [hostReport, Firmware.Engine.report, List.map_map]
  refine List.map_congr_left fun ev hev => ?_
  exact congrArg (fun start => (ev.gpio.toU8, ev.level, start)) (startUs_eventAge (hpast ev hev) _ _)

/-- A pin falls at 2100 µs, and the report about it is handed over at the given time. -/
def fallOps : List Firmware.Op := [.task 1000 1, .onEdge 0 false 2100, .task 23000 0]

def fallReport (nowUs : U64) : Option Sent :=
  (Lib.run Firmware.Device.step (.start (Firmware.Device.sampleInfo 1) 0) fallOps).committed
    (.send nowUs true)

def fallDevice : Firmware.Device :=
  Lib.run Firmware.Device.step (.start (Firmware.Device.sampleInfo 1) 0) fallOps

/-- The fall is dated by a report 2^32 - 2 µs after it, and not by one a microsecond later. -/
theorem change_times_sample :
    (∃ r report, fallReport 0x100000832 = some r ∧
      Host.decodeStatus (Firmware.encodeStatus r.status) = .ok report ∧
      report.events.map (fun ev => ev.startUs report.timestampUs) = [some 2100]) ∧
    ∃ r report, fallReport 0x100000833 = some r ∧
      Host.decodeStatus (Firmware.encodeStatus r.status) = .ok report ∧
      report.events.map (fun ev => ev.startUs report.timestampUs) = [none] := by
  have hdated : ∀ nowUs, InTime (fallOps ++ [.send nowUs true]) → ∀ r, fallReport nowUs = some r →
      ∃ report, Host.decodeStatus (Firmware.encodeStatus r.status) = .ok report ∧
        report.events.map (fun ev => ev.startUs report.timestampUs) = fallDevice.nextEvents.map fun ev =>
          if r.nowUs.toNat - ev.startUs.toNat < 2 ^ 32 - 1 then some ev.startUs else none := by
    intro nowUs hord r hr
    obtain ⟨-, report, hdecode, -, hevents⟩ :=
      change_times (Firmware.Device.sampleInfo 1) 0 fallOps (.send nowUs true) r hord hr
    have hstarts := congrArg (List.map fun x => x.2.2) hevents
    rw [List.map_map, List.map_map] at hstarts
    exact ⟨report, hdecode, hstarts⟩
  have hnow : ∀ nowUs r, fallReport nowUs = some r → r.nowUs = nowUs := by
    intro nowUs r hr
    obtain ⟨t, accepted, hop, rfl, -, -⟩ := Firmware.Device.committed_eq_some hr
    cases hop
    rfl
  have hnext : fallDevice.nextEvents = [⟨0, false, 2100⟩] := by decide +kernel
  constructor
  · obtain ⟨r, hr⟩ :=
      Option.isSome_iff_exists.mp (by decide +kernel : (fallReport 0x100000832).isSome = true)
    obtain ⟨report, hdecode, hstarts⟩ := hdated _ (by decide +kernel) r hr
    rw [hnow _ r hr, hnext] at hstarts
    exact ⟨r, report, hr, hdecode, hstarts.trans (by decide)⟩
  · obtain ⟨r, hr⟩ :=
      Option.isSome_iff_exists.mp (by decide +kernel : (fallReport 0x100000833).isSome = true)
    obtain ⟨report, hdecode, hstarts⟩ := hdated _ (by decide +kernel) r hr
    rw [hnow _ r hr, hnext] at hstarts
    exact ⟨r, report, hr, hdecode, hstarts.trans (by decide)⟩

end Hidpin.System
