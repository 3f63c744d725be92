import Hidpin.Firmware.Loop
import Hidpin.Firmware.Reasons
import Hidpin.Lib.Paced

/-! The periodic report. While the loop keeps turning and the endpoint takes every report it is offered, the
    host never waits much longer than a second for the next one. -/

namespace Hidpin.Firmware

/-- The interval of the periodic report, in µs. -/
def intervalUs : ℕ := 1000 * 1000

/-- A report that is due is due by the arithmetic of the engine. -/
theorem Engine.periodicDue_of_le {e : Engine} {nowUs : U64}
    (h : e.lastSentUs.toNat + intervalUs ≤ nowUs.toNat) : e.periodicDue nowUs = true := by
  have hsub : (nowUs - e.lastSentUs).toNat = nowUs.toNat - e.lastSentUs.toNat :=
    BitVec.toNat_sub_of_le (BitVec.le_def.mpr (by omega))
  have hinterval : periodicIntervalUs.toNat = intervalUs := by decide
  rw [periodicDue, decide_eq_true_iff, ge_iff_le, BitVec.le_def, hsub, hinterval]
  omega

namespace Device
open Engine

/-- The reports come in the order of their times, each less than the interval and `δ` after the one
    before. -/
structure Beating (δ : ℕ) (startUs : U64) (d : Device) : Prop where
  gaps : (startUs :: d.sent.map Sent.nowUs).IsChain fun a b => a.toNat ≤ b.toNat ∧
    b.toNat < a.toNat + intervalUs + δ
  last : (d.sent.map Sent.nowUs).getLastD startUs = d.engine.lastSentUs

/-- Calls without a send attempt hand nothing over. -/
theorem run_silent : ∀ (ops : List Op) (d : Device),
    (∀ op ∈ ops, ∀ nowUs accepted, op ≠ .send nowUs accepted) →
    (Lib.run step d ops).sent = d.sent ∧ (Lib.run step d ops).engine.lastSentUs = d.engine.lastSentUs
  | [], _, _ => ⟨rfl, rfl⟩
  | op :: ops, d, h => by
    have hnone : d.committed op = none := by
      cases op with
      | send nowUs accepted => exact absurd rfl (h _ List.mem_cons_self nowUs accepted)
      | _ => rfl
    obtain ⟨hsent, hlast⟩ := run_silent ops (d.step op) fun op' hop => h op' (List.mem_cons_of_mem op hop)
    rw [sent_step, hnone] at hsent
    rw [lastSentUs_step, hnone] at hlast
    exact ⟨by rw [Lib.run_cons, hsent]; simp, hlast⟩

theorem Beating.silent {δ : ℕ} {startUs : U64} {d : Device} (h : Beating δ startUs d) {ops : List Op}
    (hops : ∀ op ∈ ops, ∀ nowUs accepted, op ≠ .send nowUs accepted) :
    Beating δ startUs (Lib.run step d ops) := by
  obtain ⟨hsent, hlast⟩ := run_silent ops d hops
  exact ⟨by rw [hsent]; exact h.gaps, by rw [hsent, hlast]; exact h.last⟩

/-- An offer that the endpoint takes: either the report is handed over, or there is nothing to report. -/
theorem send_cases (d : Device) (nowUs : U64) :
    (d.committed (.send nowUs true) = some ⟨nowUs, d.engine.report nowUs, d.published⟩ ∧
      (d.step (.send nowUs true)).engine = d.engine.handOver nowUs) ∨
    (d.committed (.send nowUs true) = none ∧ (d.step (.send nowUs true)).engine = d.engine.stage ∧
      d.engine.reportReady = false) := by
  simp only [committed, step, sendStatusReport_eq, Bool.and_true]
  cases d.engine.reportReady
  · exact Or.inr ⟨rfl, rfl, rfl⟩
  · exact Or.inl ⟨rfl, rfl⟩

theorem lastSentUs_send (d : Device) (nowUs : U64) :
    (d.step (.send nowUs true)).engine.lastSentUs = nowUs ∨
      d.engine.pendingReasons = 0 ∧ (d.step (.send nowUs true)).engine.lastSentUs = d.engine.lastSentUs := by
  rcases d.send_cases nowUs with ⟨_, he⟩ | ⟨_, he, hready⟩
  · exact Or.inl (by rw [he]; rfl)
  · rw [Engine.reportReady, decide_eq_false_iff_not, not_not] at hready
    exact Or.inr ⟨hready.1, by rw [he]; rfl⟩

theorem Beating.send {δ : ℕ} {startUs : U64} {d : Device} (h : Beating δ startUs d) {nowUs : U64}
    (hby : d.engine.lastSentUs.toNat ≤ nowUs.toNat)
    (hlate : nowUs.toNat < d.engine.lastSentUs.toNat + intervalUs + δ) :
    Beating δ startUs (d.step (.send nowUs true)) := by
  have hsent := d.sent_step (.send nowUs true)
  have hlast := d.lastSentUs_step (.send nowUs true)
  rcases d.send_cases nowUs with ⟨hc, _⟩ | ⟨hc, _, _⟩
  · rw [hc] at hsent hlast
    refine ⟨?_, ?_⟩
    · rw [hsent, Option.toList_some, List.map_append, ← List.cons_append]
      refine List.isChain_append.mpr ⟨h.gaps, List.isChain_singleton _, fun a ha b hb => ?_⟩
      obtain rfl := Option.some.inj hb
      have ha : a = d.engine.lastSentUs := by
        rw [List.getLast?_cons, Option.mem_some_iff, ← List.getLastD_eq_getLast?, h.last] at ha
        exact ha.symm
      rw [ha]
      exact ⟨hby, hlate⟩
    · rw [hsent, hlast]
      simp
  · rw [hc] at hsent hlast
    refine ⟨?_, ?_⟩
    · rw [hsent]
      simpa using h.gaps
    · rw [hsent, hlast]
      simpa using h.last

/-- Only handing a report over takes reasons away. -/
theorem pendingReasons_silent : ∀ (ops : List Op) (d : Device),
    (∀ op ∈ ops, ∀ nowUs accepted, op ≠ .send nowUs accepted) →
    (Lib.run step d ops).engine.pendingReasons = 0 → d.engine.pendingReasons = 0
  | [], _, _, hzero => hzero
  | op :: ops, d, h, hzero => by
    have hstep :=
      pendingReasons_silent ops (d.step op) (fun op' hop => h op' (List.mem_cons_of_mem op hop)) hzero
    have hnone : handsOver (d, op) = false := by
      cases op with
      | send nowUs accepted => exact absurd rfl (h _ List.mem_cons_self nowUs accepted)
      | _ => rfl
    rw [pendingReasons_step, hnone, if_neg Bool.false_ne_true] at hstep
    exact (BitVec.or_eq_zero_iff.mp hstep).1

/-- A task call adds the periodic report when it is due. -/
theorem pending_task {e : Engine} {nowUs : U64} (hdue : e.lastSentUs.toNat + intervalUs ≤ nowUs.toNat)
    (inputs : U32) : (e.task nowUs inputs).pendingReasons ≠ 0 := by
  have hpending := pendingReasons_step ⟨e, [], blankConfig⟩ (.task nowUs inputs)
  have hnot : handsOver (⟨e, [], blankConfig⟩, .task nowUs inputs) = false := rfl
  rw [hnot, if_neg Bool.false_ne_true, addedReasons, Engine.periodicDue_of_le hdue, if_pos rfl] at hpending
  intro hzero
  have hsum := hpending.symm.trans hzero
  exact absurd (BitVec.or_eq_zero_iff.mp (BitVec.or_eq_zero_iff.mp hsum).2).2 (by decide)

theorem beating_start (δ : ℕ) (info : DeviceInfo) (startUs : U64) :
    Beating δ startUs (start info startUs) := by
  refine ⟨List.isChain_singleton _, ?_⟩
  rw [start, init_eq]
  rfl

end Device

namespace Main

/-- The time the loop read in this iteration, once it has. -/
def now (m : Main) : Option U64 :=
  match m.phase with
  | .overflow nowUs => some nowUs
  | .resync nowUs => some nowUs
  | .task nowUs => some nowUs
  | .report nowUs => some nowUs
  | _ => none

/-- What a step reads from the clock. -/
def reading (x : Main × LoopStep) : Option U64 :=
  match x.2 with
  | .main (.readClock nowUs) => if x.1.phase = .clock then some nowUs else none
  | _ => none

/-- The times of the clock readings of a run. -/
def readings (m : Main) (is : List LoopStep) : List U64 := (Lib.steps loopStep m is).filterMap reading

/-- The end of an iteration offers a report, and the endpoint would take it. -/
def offers (x : Main × LoopStep) : Bool :=
  match x.1.phase, x.2 with
  | .report _, .main (.report _ send) => decide (send = some true)
  | _, _ => true

/-- `c` is what the clock said last. Between two iterations the latest report is younger than the interval;
    when it is not within one, the task call has found the periodic report due. -/
structure Beat (δ : ℕ) (c : U64) (m : Main) : Prop where
  by_clock : m.engine.lastSentUs.toNat ≤ c.toNat
  now : ∀ nowUs ∈ m.now, nowUs = c
  young : m.now = none → c.toNat < m.engine.lastSentUs.toNat + intervalUs
  late : c.toNat < m.engine.lastSentUs.toNat + intervalUs + δ
  due : ∀ nowUs, m.phase = .report nowUs → m.engine.lastSentUs.toNat + intervalUs ≤ nowUs.toNat →
    m.engine.pendingReasons ≠ 0

/-- A step that neither reads the clock nor ends an iteration. -/
theorem Beat.of_silent {δ : ℕ} {c : U64} {m m' : Main} (h : Beat δ c m)
    (hlast : m'.engine.lastSentUs = m.engine.lastSentUs) (hnow : m'.now = m.now)
    (hdue : ∀ nowUs, m'.phase = .report nowUs → m.engine.lastSentUs.toNat + intervalUs ≤ nowUs.toNat →
      m'.engine.pendingReasons ≠ 0) : Beat δ c m' := by
  refine ⟨by rw [hlast]; exact h.by_clock, by rw [hnow]; exact h.now, fun hnone => ?_,
    by rw [hlast]; exact h.late, fun nowUs hp hge => hdue nowUs hp (by rw [← hlast]; exact hge)⟩
  rw [hlast]
  exact h.young (by rw [← hnow]; exact hnone)

/-- Only the end of an iteration attempts to send. -/
theorem calls_silent {m : Main} {i : LoopStep} (hi : ∀ unmounted send, i ≠ .main (.report unmounted send)) :
    ∀ op ∈ m.loopCalls i, ∀ nowUs accepted, op ≠ .send nowUs accepted := by
  cases i with
  | setPinConfig payload nowUs =>
    simp only [loopCalls]
    cases m.phase <;> simp
  | main i =>
    cases i with
    | report unmounted send => exact absurd rfl (hi unmounted send)
    | popEdge =>
      simp only [loopCalls, calls]
      cases m.phase <;> try simp
      rintro op edge edges - rfl
      simp
    | _ =>
      simp only [loopCalls, calls]
      try cases m.phase
      all_goals simp

section Steps
variable {δ : ℕ} {c startUs : U64} {m : Main} {d : Device}

theorem beat_clock (h : Beat δ c m) {nowUs : U64} (hp : m.phase = .clock) (hfrom : c.toNat ≤ nowUs.toNat)
    (hto : nowUs.toNat ≤ c.toNat + δ) : Beat δ nowUs { m with phase := .overflow nowUs } := by
  have hyoung := h.young (by rw [now, hp])
  refine ⟨h.by_clock.trans hfrom, fun t ht => ?_, fun hnone => ?_, ?_, fun t hp' => ?_⟩
  · exact (Option.some.inj ht).symm
  · cases hnone
  · show nowUs.toNat < m.engine.lastSentUs.toNat + intervalUs + δ
    omega
  · cases hp'

/-- The end of an iteration. -/
theorem beat_report (h : Beat δ c m) (hd : d.engine = m.engine) (hb : d.Beating δ startUs) {nowUs : U64}
    (hp : m.phase = .report nowUs) (unmounted : Bool) :
    Beat δ c (m.finish nowUs unmounted (some true)) ∧
      (Lib.run Device.step d (m.calls (.report unmounted (some true)))).Beating δ startUs := by
  obtain rfl : nowUs = c := h.now nowUs (by rw [now, hp]; rfl)
  have hcalls : m.calls (.report unmounted (some true)) =
      (if unmounted then [.usbReset] else []) ++ [.send nowUs true] := by
    simp only [calls, hp, Option.map_some, Option.toList_some]
  have hsilent : ∀ op ∈ (if unmounted then [Op.usbReset] else []), ∀ t a, op ≠ .send t a := by
    cases unmounted <;> simp
  have hreset : (Lib.run Device.step d (if unmounted then [.usbReset] else [])).engine =
      if unmounted then m.engine.usbReset else m.engine := by
    cases unmounted <;> simp [Device.step, hd]
  have hlast := (Device.run_silent _ d hsilent).2
  rw [hd] at hlast
  have hpending := Device.pendingReasons_silent _ d hsilent
  rw [hd] at hpending
  have hbefore := hb.silent hsilent
  rw [hcalls, Lib.run_append]
  generalize Lib.run Device.step d (if unmounted then [.usbReset] else []) = d'
    at hreset hlast hpending hbefore ⊢
  have hby : d'.engine.lastSentUs.toNat ≤ nowUs.toNat := by rw [hlast]; exact h.by_clock
  have hlate : nowUs.toNat < d'.engine.lastSentUs.toNat + intervalUs + δ := by rw [hlast]; exact h.late
  have hsent := d'.lastSentUs_send nowUs
  have hengine : (m.finish nowUs unmounted (some true)).engine = (d'.step (.send nowUs true)).engine := by
    rw [Device.step, hreset]
    rfl
  refine ⟨?_, hbefore.send hby hlate⟩
  have hinterval : 0 < intervalUs := by decide
  have hafter : nowUs.toNat < (m.finish nowUs unmounted (some true)).engine.lastSentUs.toNat + intervalUs ∧
      (m.finish nowUs unmounted (some true)).engine.lastSentUs.toNat ≤ nowUs.toNat := by
    rw [hengine]
    rcases hsent with hsent | ⟨hzero, hsent⟩
    · rw [hsent]
      omega
    · have hnot := mt (h.due nowUs hp) (not_not.mpr (hpending hzero))
      have hby := h.by_clock
      rw [hsent, hlast]
      omega
  exact ⟨hafter.2, fun t ht => absurd ht (by simp [now, finish]), fun _ => hafter.1, by omega,
    fun t hp' => absurd hp' (by simp [finish])⟩

theorem beat_step (h : Beat δ c m) (hd : d.engine = m.engine) (hb : d.Beating δ startUs) {i : LoopStep}
    (hoffers : offers (m, i) = true)
    (hread : ∀ nowUs ∈ reading (m, i), c.toNat ≤ nowUs.toNat ∧ nowUs.toNat ≤ c.toNat + δ) :
    Beat δ ((reading (m, i)).getD c) (m.loopStep i) ∧
    (Lib.run Device.step d (m.loopCalls i)).Beating δ startUs := by
  have hlast : (∀ unmounted send, i ≠ .main (.report unmounted send)) →
      (m.loopStep i).engine.lastSentUs = m.engine.lastSentUs := fun hi => by
    rw [← engine_calls hd i, (Device.run_silent _ d (calls_silent hi)).2, hd]
  by_cases hi : ∀ unmounted send, i ≠ .main (.report unmounted send)
  · refine ⟨?_, hb.silent (calls_silent hi)⟩
    specialize hlast hi
    cases i with
    | setPinConfig payload nowUs =>
      cases hp : m.phase with
      | start => exact h.of_silent hlast (by simp [loopStep, now, hp]) (by simp [loopStep, hp])
      | _ => simpa [reading, loopStep, hp] using h
    | main i =>
      cases i with
      | change n timeUs => exact h.of_silent hlast rfl h.due
      | readClock nowUs =>
        cases hp : m.phase with
        | clock =>
          obtain ⟨hfrom, hto⟩ := hread nowUs (by simp [reading, hp])
          simpa [reading, loopStep, step, hp] using beat_clock h hp hfrom hto
        | _ => simpa [reading, loopStep, step, hp] using h
      | task =>
        cases hp : m.phase with
        | task nowUs =>
          refine h.of_silent hlast (by simp [loopStep, step, now, hp]) fun t ht hdue => ?_
          simp only [loopStep, step, hp, Phase.report.injEq] at ht ⊢
          subst ht
          exact Device.pending_task hdue m.pins
        | _ => simpa [reading, loopStep, step, hp] using h
      | popEdge =>
        cases hp : m.phase with
        | drain =>
          refine h.of_silent hlast ?_ ?_
          · cases hpop : m.edges.pop <;> simp [loopStep, step, now, hp, hpop]
          · cases hpop : m.edges.pop <;> simp [loopStep, step, hp, hpop]
        | _ => simpa [reading, loopStep, step, hp] using h
      | takeOverflow =>
        cases hp : m.phase with
        | overflow nowUs =>
          refine h.of_silent hlast ?_ ?_
          · cases ho : m.edges.overflow <;> simp [loopStep, step, now, hp, ho]
          · cases ho : m.edges.overflow <;> simp [loopStep, step, hp, ho]
        | _ => simpa [reading, loopStep, step, hp] using h
      | report unmounted send => exact absurd rfl (hi unmounted send)
      | _ =>
        cases hp : m.phase <;> first
          | simpa [reading, loopStep, step, hp] using h
          | exact h.of_silent hlast (by simp [loopStep, step, now, hp]) (by simp [loopStep, step, hp])
  · obtain ⟨unmounted, send, rfl⟩ : ∃ unmounted send, i = .main (.report unmounted send) := by
      simpa only [not_forall, not_not] using hi
    cases hp : m.phase with
    | report nowUs =>
      obtain rfl : send = some true := by simpa [offers, hp] using hoffers
      have hreport := beat_report h hd hb hp unmounted
      simpa [reading, loopStep, step, loopCalls, hp] using hreport
    | _ => exact ⟨by simpa [reading, loopStep, step, hp] using h, by simpa [loopCalls, calls, hp] using hb⟩

end Steps

theorem beat_run {δ : ℕ} {startUs : U64} : ∀ (is : List LoopStep) {c : U64} {m : Main} {d : Device},
    Beat δ c m → d.engine = m.engine → d.Beating δ startUs →
    Lib.Paced δ ((c :: m.readings is).map BitVec.toNat) →
    (∀ x ∈ Lib.steps loopStep m is, offers x = true) →
    Beat δ ((m.readings is).getLastD c) (Lib.run loopStep m is) ∧ (m.device d is).Beating δ startUs
  | [], _, _, _, h, _, hb, _, _ => ⟨h, hb⟩
  | i :: is, c, m, d, h, hd, hb, hpace, hoffers => by
    have hreadings : m.readings (i :: is) = (reading (m, i)).toList ++ (m.loopStep i).readings is := by
      rw [readings, Lib.steps, List.filterMap_cons]
      cases reading (m, i) <;> rfl
    have hread : ∀ nowUs ∈ reading (m, i), c.toNat ≤ nowUs.toNat ∧ nowUs.toNat ≤ c.toNat + δ :=
      fun nowUs hnow => by
        rw [hreadings, hnow] at hpace
        exact (Lib.Paced.cons_iff.mp hpace).1
    obtain ⟨hbeat, hbeating⟩ := beat_step h hd hb (hoffers (m, i) List.mem_cons_self) hread
    have hrest : Lib.Paced δ (((reading (m, i)).getD c :: (m.loopStep i).readings is).map BitVec.toNat) := by
      rw [hreadings] at hpace
      cases hr : reading (m, i) with
      | none => rwa [hr] at hpace
      | some nowUs =>
        rw [hr] at hpace
        exact (Lib.Paced.cons_iff.mp hpace).2
    obtain ⟨hbeat, hbeating⟩ := beat_run is hbeat (engine_calls hd i) hbeating hrest fun x hx =>
      hoffers x (List.mem_cons_of_mem _ hx)
    refine ⟨?_, by rw [device, Lib.run_scripts_cons]; exact hbeating⟩
    rw [hreadings]
    cases hr : reading (m, i) with
    | none => rwa [hr] at hbeat
    | some nowUs =>
      rw [hr] at hbeat
      rwa [Option.toList_some, List.singleton_append, List.getLastD_cons]

theorem beat_boot (δ : ℕ) (info : DeviceInfo) (startUs : U64) (pins : U32) :
    Beat δ startUs (boot info startUs pins) := by
  have hlast : (boot info startUs pins).engine.lastSentUs = startUs := by
    rw [boot, Engine.init_eq]
  have hinterval : 0 < intervalUs := by decide
  refine ⟨by rw [hlast], fun t ht => ?_, fun _ => ?_, ?_, fun t ht => ?_⟩
  · exact absurd ht (by simp [now, boot])
  · rw [hlast]
    omega
  · rw [hlast]
    omega
  · exact absurd ht (by simp [boot])

/-- The heartbeat. While the clock is read at least every `δ` µs and every iteration ends with a report that
    is offered to the endpoint and would be taken, each report comes less than a second and `δ` after the one
    before, whatever the pins and the host do meanwhile; and between two iterations the latest report is less
    than a second old. -/
theorem heartbeat (info : DeviceInfo) (startUs : U64) (pins : U32) (is : List LoopStep) (δ : ℕ)
    (hpace : Lib.Paced δ ((startUs :: (boot info startUs pins).readings is).map BitVec.toNat))
    (hoffers : ∀ x ∈ Lib.steps loopStep (boot info startUs pins) is, offers x = true) :
    let times := ((boot info startUs pins).device (.start info startUs) is).sent.map Sent.nowUs
    ((startUs :: times).IsChain fun a b => a.toNat ≤ b.toNat ∧ b.toNat < a.toNat + 1000 * 1000 + δ) ∧
      ((Lib.run loopStep (boot info startUs pins) is).phase = .start →
        (((boot info startUs pins).readings is).getLastD startUs).toNat <
          (times.getLastD startUs).toNat + 1000 * 1000) := by
  have hengine : (Device.start info startUs).engine = (boot info startUs pins).engine := rfl
  obtain ⟨hbeat, hbeating⟩ :=
    beat_run is (beat_boot δ info startUs pins) hengine (Device.beating_start δ info startUs)
    hpace hoffers
  refine ⟨by simpa only [intervalUs] using hbeating.gaps, fun hp => ?_⟩
  have hyoung := hbeat.young (by rw [now, hp])
  rw [hbeating.last, engine_device hengine]
  simpa only [intervalUs] using hyoung

/-- Four iterations; a change is reported in the second one, and the fourth one finds the periodic report
    due. -/
def fourTurns (n : Gpio) : List LoopStep :=
  iteration 1000 (some true) ++ [.main (.change n 200000)] ++ iteration 600000 (some true) ++
    iteration 1200000 (some true) ++ iteration 1800000 (some true)

theorem heartbeat_run :
    ((boot (Device.sampleInfo 1) 0 1).device (.start (Device.sampleInfo 1) 0) (fourTurns 0)).sent.map
        Sent.nowUs = [600000, 1800000] ∧
      (1800000 : U64).toNat < (600000 : U64).toNat + 1000 * 1000 + 600000 := by
  have hsent : ((boot (Device.sampleInfo 1) 0 1).device (.start (Device.sampleInfo 1) 0)
      (fourTurns 0)).sent.map Sent.nowUs = [600000, 1800000] := by decide +kernel
  refine ⟨hsent, ?_⟩
  have h :=
    (heartbeat (Device.sampleInfo 1) 0 1 (fourTurns 0) 600000 (by decide +kernel) (by decide +kernel)).1
  rw [hsent] at h
  exact (List.isChain_cons_cons.mp (List.isChain_cons_cons.mp h).2).1.2

end Main

end Hidpin.Firmware
