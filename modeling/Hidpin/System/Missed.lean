import Hidpin.Codec.Status
import Hidpin.Firmware.Reasons
import Hidpin.Host.Missed
import Hidpin.Lib.Gaps

/-! Missed reports, from the counter of the engine to the counts of the host: the reports that were
    handed over are numbered by their seq, and the gaps the host adds up are the reports it did not
    receive. -/

namespace Hidpin.Firmware.Device
open Engine

/-- The fields behind the seq of a report and of an answer. -/
def counters (e : Engine) : U16 × U16 × Bool := (e.nextSeq, e.lastSeq, e.hasSent)

/-- Only handing a report over counts. -/
theorem counters_step (d : Device) (op : Op) :
    counters (d.step op).engine =
      if handsOver (d, op) then (d.engine.nextSeq + 1, d.engine.nextSeq, true) else counters d.engine := by
  cases op with
  | onEdge gpio raw nowUs =>
    exact (congrArg counters (d.engine.frame_onEdge gpio raw nowUs) :)
  | resync raw nowUs => exact (congrArg counters (d.engine.frame_resync raw nowUs) :)
  | task nowUs inputs =>
    have hpoll : ∀ e : Engine, counters (e.pollTask nowUs) = counters e := fun e => by
      have hframe : counters (e.pollPins nowUs) = counters e :=
        (congrArg counters (e.frame_pollPins nowUs) :)
      unfold pollTask
      split_ifs
      · exact hframe
      · exact hframe
    simp only [step, task_eq, hpoll, handsOver, committed]
    cases d.engine.settles nowUs
    · rfl
    · rw [if_pos rfl, finishSettle_eq]
      rfl
  | setPinConfig payload nowUs =>
    rcases d.engine.setPinConfig_cases payload nowUs with ⟨_, heq⟩ | ⟨next, _, ha⟩
    · simp [step, handsOver, committed, heq, recordResult, counters]
    · have hrest : counters (d.engine.setPinConfig payload nowUs) = counters d.engine :=
        (congrArg counters ha.rest :)
      simp [step, handsOver, committed, hrest]
  | output payload =>
    simp only [step, output]
    split <;> rfl
  | usbReset =>
    simp only [step, usbReset]
    split_ifs <;> simp_all [handsOver, committed, counters]
  | send nowUs accepted =>
    rcases d.committed_send nowUs accepted with ⟨hc, he⟩ | ⟨hc, he⟩
    · simp [handsOver, hc, he, handOver, counters]
    · simp [handsOver, hc, he, stage, counters]
  | _ => rfl

theorem nextSeq_step (d : Device) (op : Op) :
    (d.step op).engine.nextSeq = if handsOver (d, op) then d.engine.nextSeq + 1 else d.engine.nextSeq := by
  have h := congrArg Prod.fst (counters_step d op)
  rwa [apply_ite Prod.fst] at h

/-- A report as the device sends it by itself. -/
structure OwnReport (s : Status) : Prop where
  reason : hasFlag s.reason reasonHostRequest = false
  count : s.events.length ≤ eventsPerReport
  gpio : ∀ ev ∈ s.events, ev.gpio.toNat < gpioCount

/-- The reports handed over are numbered, and HOST_REQUEST is not among their reasons. -/
structure Numbered (d : Device) : Prop where
  nextSeq : d.engine.nextSeq = BitVec.ofNat 16 d.sent.length
  reasons : hasFlag d.engine.pendingReasons reasonHostRequest = false
  seq : ∀ i r, d.sent[i]? = some r → r.status.seq = BitVec.ofNat 16 i
  own : ∀ r ∈ d.sent, OwnReport r.status

theorem ownReport {e : Engine} (h : hasFlag e.pendingReasons reasonHostRequest = false) (nowUs : U64) :
    OwnReport (e.report nowUs) where
  reason := by
    have hlevel : hasFlag (if 0 < e.carried.length then reasonLevelChanged else 0)
        reasonHostRequest = false := by
      split <;> decide
    simp only [report, reportReason, hasFlag_or, h, hlevel, Bool.or_self]
  count := by simp [report, carried]
  gpio ev hev := by
    obtain ⟨edge, -, rfl⟩ := List.mem_map.mp hev
    exact (Host.toNat_toU8 edge.gpio).trans_lt edge.gpio.isLt

theorem numbered_step (d : Device) (op : Op) (h : d.Numbered) : (d.step op).Numbered := by
  have hreasons : hasFlag (d.step op).engine.pendingReasons reasonHostRequest = false := by
    rw [pendingReasons_step]
    split
    · exact hasFlag_zero _
    · rw [hasFlag_or, h.reasons, (hasFlag_addedReasons d op).1, Bool.or_self]
  have hsent := sent_step d op
  have hnext := nextSeq_step d op
  rcases hc : d.committed op with _ | r
  · rw [hc, Option.toList_none, List.append_nil] at hsent
    rw [handsOver, hc] at hnext
    exact ⟨by rw [hsent]; exact hnext.trans h.nextSeq, hreasons,
      by rw [hsent]; exact h.seq, by rw [hsent]; exact h.own⟩
  · rw [hc, Option.toList_some] at hsent
    rw [handsOver, hc] at hnext
    obtain ⟨nowUs, accepted, -, rfl, -, -⟩ := committed_eq_some hc
    refine ⟨?_, hreasons, fun i r hi => ?_, fun r hr => ?_⟩
    · rw [hnext, hsent, List.length_append, List.length_singleton, BitVec.ofNat_add, ← h.nextSeq]
      rfl
    · rw [hsent, List.getElem?_append] at hi
      split at hi
      · exact h.seq i r hi
      · have hlen : i = d.sent.length := by
          have hsome := (List.getElem?_eq_some_iff.mp hi).1
          simp only [List.length_singleton] at hsome
          omega
        subst hlen
        rw [Nat.sub_self, List.getElem?_cons_zero] at hi
        rw [← Option.some.inj hi]
        exact h.nextSeq
    · rw [hsent, List.mem_append, List.mem_singleton] at hr
      rcases hr with hr | rfl
      · exact h.own r hr
      · exact ownReport h.reasons nowUs

theorem numbered_run (info : DeviceInfo) (startUs : U64) (ops : List Op) :
    (Lib.run step (start info startUs) ops).Numbered := by
  refine Lib.run_preserves numbered_step ops ⟨?_, ?_, ?_, ?_⟩
  · rw [start, init_eq]
    rfl
  · rw [start, init_eq]
    exact hasFlag_zero _
  · intro i r hi
    cases hi
  · intro r hr
    cases hr

end Hidpin.Firmware.Device

namespace Hidpin.System
open Firmware (Sent)
open Firmware.Device (OwnReport)
open Host (Answer Tally Logged Watcher World WatchOptions Input reportIdStatus decodeStatus contains)

/-- What a read of the host hears: nothing, an error, an answer to a status request, or a report that the
    device handed over, by its number. -/
inductive Heard where
  | timeout
  | failed (e : Host.OsError)
  | hostRequest (payload : List U8)
  | committed (i : ℕ)

namespace Heard

/-- The index of a report that was heard. -/
def index : Heard → Option ℕ
  | .committed i => some i
  | _ => none

/-- The answer of the read, when `sent` are the reports handed over. -/
def answer (sent : List Sent) : Heard → Answer
  | .timeout => .ok []
  | .failed e => .error e
  | .hostRequest payload => .ok (reportIdStatus :: payload)
  | .committed i => .ok (sent[i]?.elim [] fun r => reportIdStatus :: Firmware.encodeStatus r.status)

end Heard

/-- The host hears reports that were handed over, in order, and fewer than 65536 are lost in each gap; the
    answers to status requests carry HOST_REQUEST. -/
structure Receivable (sent : List Sent) (heard : List Heard) : Prop where
  committed : ∀ i, .committed i ∈ heard → i < sent.length
  inOrder : (heard.filterMap Heard.index).IsChain fun i j => i < j ∧ j - i - 1 < 65536
  requests : ∀ payload, .hostRequest payload ∈ heard →
    ∃ report, decodeStatus payload = .ok report ∧ contains report.reason Host.Reason.hostRequest = true

/-! ### One report -/

/-- A report of the firmware, as the host reads it. -/
def hostReport (s : Firmware.Status) : Host.StatusReport where
  seq := s.seq
  reason := s.reason
  flags := s.flags
  monitored := s.monitored
  outputs := s.outputs
  levels := s.levels
  timestampUs := s.timestampUs
  events := s.events.map fun e => ⟨e.gpio, e.level, e.ageUs⟩

theorem toFirmware_hostReport (s : Firmware.Status) : Codec.toFirmware (hostReport s) = s := by
  have hevents : (hostReport s).events.map (fun e => (⟨e.gpio, e.level, e.ageUs⟩ : Firmware.StatusEvent)) =
      s.events := by
    rw [hostReport, List.map_map]
    exact List.map_id _
  rw [Codec.toFirmware, hevents]
  rfl

/-- The host decodes what the device encodes. -/
theorem decode_hostReport {s : Firmware.Status} (hevents : s.events.length ≤ 7)
    (hgpio : ∀ ev ∈ s.events, ev.gpio.toNat < 32) :
    decodeStatus (Firmware.encodeStatus s) = .ok (hostReport s) ∧ (Firmware.encodeStatus s).length = 63 := by
  have hcount : (hostReport s).events.length ≤ 7 := by simpa [hostReport] using hevents
  have hgpio : ∀ e ∈ (hostReport s).events, e.gpio.toNat < 32 := by
    intro e he
    obtain ⟨ev, hev, rfl⟩ := List.mem_map.mp he
    exact hgpio ev hev
  have hdecodable : Codec.Decodable (Codec.wire (hostReport s)) := by
    refine ⟨Codec.length_wire hcount, ?_⟩
    rw [show Host.byteAt (Codec.wire (hostReport s)) 4 = BitVec.ofNat 8 (hostReport s).events.length
      from rfl, BitVec.toNat_ofNat, Nat.mod_eq_of_lt (by omega)]
    exact hcount
  rw [← congrArg Firmware.encodeStatus (toFirmware_hostReport s), Codec.firmware_encode hcount]
  exact ⟨by rw [Codec.rust_decode hdecodable, Codec.fields_wire hcount hgpio], Codec.length_wire hcount⟩

theorem decode_own {s : Firmware.Status} (h : OwnReport s) :
    decodeStatus (Firmware.encodeStatus s) = .ok (hostReport s) :=
  (decode_hostReport h.count fun ev hev => (h.gpio ev hev).trans (by decide)).1

theorem length_own {s : Firmware.Status} (h : OwnReport s) : (Firmware.encodeStatus s).length = 63 :=
  (decode_hostReport h.count fun ev hev => (h.gpio ev hev).trans (by decide)).2

theorem not_hostRequest {s : Firmware.Status} (h : OwnReport s) :
    contains (hostReport s).reason Host.Reason.hostRequest = false := by
  have hbits : ∀ b : U8, Firmware.hasFlag b Firmware.reasonHostRequest = false →
      contains b Host.Reason.hostRequest = false := by decide
  exact hbits _ h.reason

theorem account_own {s : Firmware.Status} (h : OwnReport s) (t : Tally) :
    t.account (.ok (reportIdStatus :: Firmware.encodeStatus s)) = t.add s.seq ∧
    t.hear (.ok (reportIdStatus :: Firmware.encodeStatus s)) = t.add s.seq := by
  have hlen : (reportIdStatus :: Firmware.encodeStatus s).length = Host.reportLen := by
    rw [List.length_cons, length_own h]
    rfl
  have htake : ((reportIdStatus :: Firmware.encodeStatus s).take Host.reportLen).tail =
      Firmware.encodeStatus s := by
    rw [List.take_of_length_le hlen.le]
    rfl
  have hlong : ¬ (reportIdStatus :: Firmware.encodeStatus s).length < Host.reportLen := by
    rw [hlen]; exact lt_irrefl _
  have hid : ¬ Host.byteAt (reportIdStatus :: Firmware.encodeStatus s) 0 ≠ reportIdStatus := not_not.mpr rfl
  constructor
  · rw [Tally.account, if_neg (not_or.mpr ⟨by rw [hlen]; decide, not_or.mpr ⟨hid, hlong⟩⟩),
      List.tail_cons, decode_own h]
    exact if_neg (by rw [not_hostRequest h]; decide)
  · rw [Tally.hear, Tally.reportIn, if_neg (not_or.mpr ⟨hlong, hid⟩), htake, decode_own h]
    rfl

/-! ### All reports -/

/-- The seq of numbered reports, added up: the gaps are the numbers skipped. -/
theorem tally_numbers (is : List ℕ) (h : is.IsChain fun i j => i < j ∧ j - i - 1 < 65536) :
    (is.map (BitVec.ofNat 16)).foldl Tally.add (none, 0) =
      (is.getLast?.map (BitVec.ofNat 16), Lib.skipped is) := by
  induction is using List.reverseRecOn with
  | nil => rfl
  | append_singleton is j ih =>
    have hasc : (is ++ [j]).Pairwise (· < ·) := (h.imp fun _ _ h => h.1).pairwise
    rw [List.map_append, List.foldl_append, ih h.left_of_append, List.getLast?_concat]
    rcases hlast : is.getLast? with _ | i
    · obtain rfl := List.getLast?_eq_none_iff.mp hlast
      simp [Tally.add, Host.Device.missedBetween, Lib.skipped]
    · obtain ⟨hlt, hgap⟩ := (List.isChain_append.mp h).2.2 i hlast j rfl
      rw [Lib.skipped_concat hasc hlast]
      refine Prod.ext rfl ?_
      refine congrArg (Lib.skipped is + ·)
        (?_ : (BitVec.ofNat 16 j - BitVec.ofNat 16 i - 1).toNat = j - i - 1)
      bv_omega

/-- What one answer adds to the tallies. -/
theorem account_heard {d : Firmware.Device} (hd : d.Numbered) {x : Heard}
    (hcommitted : ∀ i, x = .committed i → i < d.sent.length)
    (hrequest : ∀ payload, x = .hostRequest payload →
      ∃ report, decodeStatus payload = .ok report ∧ contains report.reason Host.Reason.hostRequest = true)
    (t : Tally) :
    t.account (x.answer d.sent) = x.index.elim t (fun i => t.add (BitVec.ofNat 16 i)) ∧
    ((∀ payload, x ≠ .hostRequest payload) →
      t.hear (x.answer d.sent) = x.index.elim t fun i => t.add (BitVec.ofNat 16 i)) := by
  cases x with
  | timeout => exact ⟨rfl, fun _ => rfl⟩
  | failed e => exact ⟨rfl, fun _ => rfl⟩
  | hostRequest payload =>
    obtain ⟨report, hdecode, hreason⟩ := hrequest payload rfl
    refine ⟨?_, fun hnot => absurd rfl (hnot payload)⟩
    simp only [Heard.answer, Tally.account, List.tail_cons, hdecode, hreason, if_true, ite_self]
    rfl
  | committed i =>
    have hi := hcommitted i rfl
    have hget : d.sent[i]? = some d.sent[i] := List.getElem?_eq_getElem hi
    have hown := hd.own d.sent[i] (List.getElem_mem hi)
    have hseq := hd.seq i d.sent[i] hget
    rw [Heard.answer, hget, Heard.index, Option.elim_some, Option.elim_some, ← hseq]
    exact ⟨(account_own hown t).1, fun _ => (account_own hown t).2⟩

/-- The tallies of the answers are those of the numbers of the reports heard. -/
theorem tally_heard {d : Firmware.Device} (hd : d.Numbered) {heard : List Heard}
    (h : Receivable d.sent heard) :
    ((heard.map (Heard.answer d.sent)).foldl Tally.account (none, 0)).2 =
        Lib.skipped (heard.filterMap Heard.index) ∧
      ((∀ payload, .hostRequest payload ∉ heard) →
        ((heard.map (Heard.answer d.sent)).foldl Tally.hear (none, 0)).2 =
          Lib.skipped (heard.filterMap Heard.index)) := by
  have hnumbers := tally_numbers _ h.inOrder
  rw [List.foldl_map, List.foldl_filterMap, List.foldl_ext _ (fun t x => x.index.elim t fun i =>
    t.add (BitVec.ofNat 16 i)) _ fun t x _ => by cases x.index <;> rfl] at hnumbers
  have hone : ∀ x ∈ heard, ∀ t : Tally, _ := fun x hx t =>
    account_heard hd (fun i hi => h.committed i (hi ▸ hx)) (fun p hp => h.requests p (hp ▸ hx)) t
  constructor
  · rw [List.foldl_map, List.foldl_ext _ _ _ fun t x hx => (hone x hx t).1]
    exact congrArg Prod.snd hnumbers
  · intro hnot
    rw [List.foldl_map, List.foldl_ext _ _ _ fun t x hx => (hone x hx t).2 fun p hp => hnot p (hp ▸ hx)]
    exact congrArg Prod.snd hnumbers

variable {ω : Type} [World ω]

/-- Missed reports are counted exactly, for a device whose reports are numbered in every run: by
    `missed_reports`, whatever calls and answers to status requests come in between, and by the watch loop
    over one connection, from the step that opens the device to the one that loses it. -/
theorem missed_exact (info : Firmware.DeviceInfo) (startUs : U64) (ops : List Firmware.Op)
    (heard : List Heard)
    (h : Receivable (Lib.run Firmware.Device.step (.start info startUs) ops).sent heard) :
    let sent := (Lib.run Firmware.Device.step (.start info startUs) ops).sent
    (∀ i r, sent[i]? = some r → r.status.seq = BitVec.ofNat 16 i) ∧
    (∀ (w : ω) (serial : String) (nanos : U64) (pid : U32) (calls : List Host.Device.Call),
      let s := Lib.run Host.Device.call (.new serial nanos pid, Logged.start w) calls
      s.2.reads = heard.map (Heard.answer sent) → s.1.missed = Lib.skipped (heard.filterMap Heard.index)) ∧
    ∀ (o : WatchOptions) (w : ω) (before : List Input) (input : Input) (inputs : List Input),
      let c := Lib.run Watcher.step (.start o (Logged.start w)) before
      let c' := Lib.run Watcher.step c (input :: inputs)
      c.ctx.loop.conn = none →
      (∀ x ∈ Lib.steps Watcher.step (c.step input) inputs, x.1.ctx.loop.conn.isSome = true) →
      c'.ctx.world.reads = c.ctx.world.reads ++ heard.map (Heard.answer sent) →
      (∀ payload, .hostRequest payload ∉ heard) →
      Host.missedOf (c'.ctx.emitted.drop c.ctx.emitted.length) =
        Lib.skipped (heard.filterMap Heard.index) := by
  have hd := Firmware.Device.numbered_run info startUs ops
  refine ⟨hd.seq, ?_, ?_⟩
  · intro w serial nanos pid calls s hreads
    obtain ⟨new, hnew, htally⟩ := Host.calls_tally calls (.new serial nanos pid) (Logged.start w)
    have heq : heard.map (Heard.answer _) = new := hreads.symm.trans hnew
    rw [← heq] at htally
    exact (congrArg Prod.snd htally).trans (tally_heard hd h).1
  · intro o w before input inputs c c' hnone hconn hreads hnot
    obtain ⟨new, emitted, hnew, hemitted, hmissed⟩ :=
      Watcher.connection_counted o (Logged.start w) before input inputs hnone hconn
    have heq : heard.map (Heard.answer _) = new := List.append_cancel_left (hreads.symm.trans hnew)
    rw [← heq] at hmissed
    rw [show c'.ctx.emitted = c.ctx.emitted ++ emitted from hemitted, List.drop_left, hmissed]
    exact (tally_heard hd h).2 hnot

/-- Three output commands, and the report about each. -/
def missedOps : List Firmware.Op :=
  [.output (List.replicate 8 0), .send 10 true, .output (List.replicate 8 0), .send 20 true,
    .output (List.replicate 8 0), .send 30 true]

def missedSent : List Sent :=
  (Lib.run Firmware.Device.step (.start (Firmware.Device.sampleInfo 0x3FFFFFFF) 0) missedOps).sent

/-- The second of the three reports is lost. -/
def missedHeard : List Heard := [.committed 0, .timeout, .committed 2]

def missedScript : Host.Script where
  features := [.ok Host.Script.deviceInfo, .ok Host.Script.unconfigured]
  sends := []
  inputs := [.ok Host.Script.status, .ok Host.Script.status]
  reads := missedHeard.map (Heard.answer missedSent)

/-- Both the counter of a device and the counts of a watcher say one. -/
theorem missed_exact_sample :
    (Lib.run Host.Device.call (.new "E6614103E7" 1 2, Logged.start missedScript)
      [.readStatus none, .requestStatus, .readStatus (some 5), .readStatus none]).1.missed = 1 ∧
    Host.missedOf (Lib.run Watcher.step (.start ⟨none, none, [], 1⟩ (Logged.start missedScript))
      (.turn :: List.replicate 3 .turn)).ctx.emitted = 1 := by
  have hsent : missedSent.length = 3 := by decide +kernel
  have hskipped : Lib.skipped (missedHeard.filterMap Heard.index) = 1 := by decide +kernel
  have hreceivable : Receivable missedSent missedHeard := by
    refine ⟨fun i hi => ?_, by decide +kernel, fun _ hmem => by simp [missedHeard] at hmem⟩
    have hi : i = 0 ∨ i = 2 := by simpa [missedHeard] using hi
    omega
  obtain ⟨-, hdevice, hwatch⟩ :=
    missed_exact (ω := Host.Script) (Firmware.Device.sampleInfo 0x3FFFFFFF) 0 missedOps
      missedHeard hreceivable
  refine ⟨(hdevice missedScript "E6614103E7" 1 2 _ (by decide +kernel)).trans hskipped, ?_⟩
  have h := hwatch ⟨none, none, [], 1⟩ missedScript [] .turn (List.replicate 3 .turn) rfl (by decide +kernel)
    (by decide +kernel) (fun _ hmem => by simp [missedHeard] at hmem)
  rwa [hskipped, Lib.run_nil, show (Watcher.start ⟨none, none, [], 1⟩
    (Logged.start missedScript)).ctx.emitted.length = 0 from rfl, List.drop_zero] at h

end Hidpin.System
