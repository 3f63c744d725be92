import Hidpin.Lib.Flips
import Hidpin.Firmware.Changes
import Hidpin.Firmware.Invariant
import Hidpin.Firmware.Reasons
import Hidpin.Firmware.Replay

/-! How the levels of a pin go on from report to report. While no settle finishes and no event is dropped,
    the queued events of a pin flip the level that was reported last, one after the other, up to the
    confirmed one; so each report flips the levels of the one before it. Both conditions show in the
    reports: a settle that changes anything is told by CONFIG_CHANGED, and a loss by OVERFLOW in the next
    report that empties the queue. -/

namespace Hidpin.Firmware
open Lib (Flips)

/-- The levels that the events of a pin leave. -/
def levelsOf (events : List EdgeEvent) (n : Gpio) : List Bool :=
  (events.filter fun ev => decide (ev.gpio = n)).map EdgeEvent.level

theorem levelsOf_append (events events' : List EdgeEvent) (n : Gpio) :
    levelsOf (events ++ events') n = levelsOf events n ++ levelsOf events' n := by
  simp [levelsOf]

namespace Status

/-- The levels that the events of a pin in a report leave. -/
def levelsOf (s : Status) (n : Gpio) : List Bool :=
  (s.events.filter fun ev => decide (ev.gpio = n.toU8)).map StatusEvent.level

/-- A report that tells neither of a changed configuration nor of a loss. -/
def plain (s : Status) : Bool := !hasFlag s.reason reasonConfigChanged && !hasFlag s.flags flagOverflow

theorem plain_iff {s : Status} :
    s.plain = true ↔ hasFlag s.reason reasonConfigChanged = false ∧
    hasFlag s.flags flagOverflow = false := by
  rw [plain, Bool.and_eq_true, Bool.not_eq_true', Bool.not_eq_true']

/-- A report tells how the pins of the one before it went on: it is about them too, and its events flip
    their levels in turn up to its own. -/
def GoesOn (r r' : Status) : Prop :=
  ∀ n, hasBit r.monitored n = true →
    hasBit r'.monitored n = true ∧ Flips (hasBit r.levels n) (hasBit r'.levels n) (r'.levelsOf n)

end Status

namespace Engine

/-- The queued events of a pin flip its reported level in turn, up to the confirmed one. -/
def Continues (e : Engine) (n : Gpio) : Prop :=
  Flips (hasBit e.reportedLevels n) (e.debounce n).confirmed (levelsOf e.queue.toList n)

instance (e : Engine) (n : Gpio) : Decidable (e.Continues n) := inferInstanceAs (Decidable (Flips _ _ _))

theorem levelsOf_report (e : Engine) (nowUs : U64) (n : Gpio) :
    (e.report nowUs).levelsOf n = levelsOf e.carried n := by
  rw [Status.levelsOf, report, levelsOf, List.filter_map, List.map_map]
  simp only [Function.comp_def, eventOf, toU8_injective.eq_iff]

/-- The levels that a report gives to the monitored pins are those that count as reported once it is handed
    over. -/
theorem hasBit_report {c : PinConfig} {e : Engine} {n : Gpio} (hinv : e.Inv c)
    (hn : hasBit e.monitored n = true) (nowUs : U64) :
    hasBit (e.report nowUs).levels n = hasBit (e.handOver nowUs).reportedLevels n := by
  rw [report, hasBit_or, hasBit_and, hinv.not_output hn, Bool.and_false, Bool.or_false]
  rfl

/-- A report takes the events that lead to its levels, and the queue goes on from there. -/
theorem Continues.handOver {c : PinConfig} {e : Engine} {n : Gpio} (h : e.Continues n) (hinv : e.Inv c)
    (hn : hasBit e.monitored n = true) (nowUs : U64) :
    (e.handOver nowUs).Continues n ∧
      Flips (hasBit e.reportedLevels n) (hasBit (e.report nowUs).levels n)
        ((e.report nowUs).levelsOf n) := by
  have hlevels : hasBit (e.report nowUs).levels n = hasBit e.reflected n := hasBit_report hinv hn nowUs
  rw [Continues, ← List.take_append_drop eventsPerReport e.queue.toList, levelsOf_append,
    Lib.flips_append] at h
  obtain ⟨level, htaken, hleft⟩ := h
  have hreflected : hasBit e.reflected n = level := by
    rw [reflected, hasBit_and, hn, Bool.and_true]
    cases hd : e.drains with
    | true =>
      have hnil : e.queue.toList.drop eventsPerReport = [] := List.drop_of_length_le (of_decide_eq_true hd)
      rw [hnil] at hleft
      rw [if_pos rfl, hasBit_confirmedLevels, hn, Bool.true_and]
      exact (Lib.flips_nil.mp hleft).symm
    | false =>
      rw [if_neg Bool.false_ne_true, hasBit_replay]
      exact htaken.replay
  refine ⟨?_, ?_⟩
  · rw [Continues, Device.toList_handOver]
    refine Eq.subst (motive := fun b => Flips b _ _) ?_ hleft
    exact hreflected.symm
  · rw [hlevels, hreflected, levelsOf_report]
    exact htaken

end Engine

namespace Device
open Engine

theorem settledTo_of_finishesSettle {d : Device} {op : Op} (h : finishesSettle (d, op) = false) (n : Gpio) :
    settledTo n (d, op) = none := by
  cases op with
  | task nowUs inputs =>
    have hnot : d.engine.settles nowUs = false := h
    exact if_neg fun hc => absurd (hnot.symm.trans hc.1) (by decide)
  | _ => rfl

theorem sameReported_of {d : Device} {op : Op} (hsend : ∀ nowUs accepted, op ≠ .send nowUs accepted)
    (hsettle : finishesSettle (d, op) = false) : SameReported d.engine (d.step op).engine := by
  refine sameReported_step d hsend (Eq.trans ?_ hsettle)
  cases op <;> rfl

/-- Without a settle and without a loss the queue goes on as before. -/
theorem continues_step {d : Device} (h : d.Inv) {n : Gpio} {op : Op}
    (hsend : ∀ nowUs accepted, op ≠ .send nowUs accepted) (hsettle : finishesSettle (d, op) = false)
    (hroom : dropsEvent (d, op) = false) (hc : d.engine.Continues n) :
    (d.step op).engine.Continues n := by
  obtain ⟨new, hhistory, hqueue, -, -⟩ := grows_step h hsend
  obtain ⟨flips, hevents, hchain, hlast⟩ := alternates_step h (settledTo_of_finishesSettle hsettle n)
  have hsame : hasBit (d.step op).engine.reportedLevels n = hasBit d.engine.reportedLevels n := by
    rw [(sameReported_of hsend hsettle).reportedLevels]
  have hkept : kept new = new.map Confirmed.event := by
    rw [dropsEvent, hhistory, List.drop_left] at hroom
    rw [kept, List.filter_eq_self.mpr fun c hmem => ?_]
    simpa using List.any_eq_false.mp hroom c hmem
  have hnew : (new.map Confirmed.event).filter (fun ev => decide (ev.gpio = n)) = flips := by
    have heq : (d.step op).engine.eventsOf n = d.engine.eventsOf n ++ flips := hevents
    rw [eventsOf, hhistory, List.map_append, List.filter_append] at heq
    exact List.append_cancel_left heq
  rw [Continues, hqueue, hsame, hkept, levelsOf_append, Lib.flips_append]
  refine ⟨_, hc, ?_⟩
  rw [levelsOf, hnew]
  exact ⟨hchain, hlast⟩

/-- An empty queue has reported everything. -/
def Emptied (d : Device) : Prop :=
  d.engine.queue.toList = [] → ∀ n, hasBit d.engine.monitored n = true →
    hasBit d.engine.reportedLevels n = (d.engine.debounce n).confirmed

theorem Emptied.continues {d : Device} (h : d.Emptied) (hempty : d.engine.queue.toList = []) {n : Gpio}
    (hn : hasBit d.engine.monitored n = true) : d.engine.Continues n := by
  rw [Continues, hempty]
  exact Lib.flips_nil.mpr (h hempty n hn)

/-- An operation after which the queue is empty, other than a send, recorded no event. -/
theorem quiet_of_empty {d : Device} (h : d.Inv) {op : Op}
    (hsend : ∀ nowUs accepted, op ≠ .send nowUs accepted) (hempty : (d.step op).engine.queue.toList = []) :
    d.engine.queue.toList = [] ∧ (d.step op).engine.history = d.engine.history := by
  obtain ⟨new, hhistory, hqueue, -, hfull⟩ := grows_step h hsend
  rw [hempty] at hqueue hfull
  obtain ⟨hbefore, hkept⟩ := List.append_eq_nil_iff.mp hqueue.symm
  have hnone : new = [] := by
    rw [kept, List.map_eq_nil_iff, List.filter_eq_nil_iff] at hkept
    refine List.eq_nil_iff_forall_not_mem.mpr fun c hc => hfull (List.any_eq_true.mpr ⟨c, hc, ?_⟩) rfl
    simpa using hkept c hc
  exact ⟨hbefore, by rw [hhistory, hnone, List.append_nil]⟩

/-- What a settle leaves of the reported levels and the monitored pins. -/
theorem reported_settle {d : Device} {nowUs : U64} (hsettles : d.engine.settles nowUs = true)
    (inputs : U32) (n : Gpio) :
    hasBit (d.step (.task nowUs inputs)).engine.monitored n = modeIsInput (d.engine.config.mode n) ∧
    (modeIsInput (d.engine.config.mode n) = true →
      hasBit (d.step (.task nowUs inputs)).engine.reportedLevels n =
        if hasBit d.engine.settling n then hasBit inputs n else hasBit d.engine.reportedLevels n) := by
  have hsame := sameReported_pollTask (d.engine.finishSettle inputs) nowUs
  rw [step, task_eq, if_pos hsettles, hsame.monitored, hsame.reportedLevels, finishSettle_eq]
  refine ⟨hasBit_inputMask _ _, fun hmode => ?_⟩
  rw [hasBit_and, hasBit_inputMask, hmode, Bool.and_true, hasBit_readLevels]

theorem emptied_step {d : Device} (hinv : d.Inv) (h : d.Emptied) (op : Op) : (d.step op).Emptied := by
  intro hempty n hn
  by_cases hop : ∃ nowUs accepted, op = .send nowUs accepted
  · obtain ⟨nowUs, accepted, rfl⟩ := hop
    rcases d.committed_send nowUs accepted with ⟨-, he⟩ | ⟨-, he⟩
    · rw [he] at hempty hn ⊢
      rw [toList_handOver, List.drop_eq_nil_iff] at hempty
      have hdrains : d.engine.drains = true := decide_eq_true hempty
      have hmonitored : hasBit d.engine.monitored n = true := hn
      simp only [handOver, reflected, hdrains, if_true, hasBit_and, hasBit_confirmedLevels, hmonitored,
        Bool.true_and, Bool.and_true]
    · rw [he] at hempty hn ⊢
      exact h hempty n hn
  have hsend : ∀ nowUs accepted, op ≠ .send nowUs accepted :=
    fun nowUs accepted heq => hop ⟨nowUs, accepted, heq⟩
  obtain ⟨hbefore, hhistory⟩ := quiet_of_empty hinv hsend hempty
  have hview := pinView_act hinv n op
  cases hsettled : settledTo n (d, op) with
  | none =>
    obtain ⟨flips, hevents, hchain, hlast⟩ := alternates_step hinv hsettled
    have hnone : flips = [] := by
      have heq : (d.step op).engine.eventsOf n = d.engine.eventsOf n ++ flips := hevents
      rw [eventsOf, hhistory] at heq
      exact List.self_eq_append_right.mp heq
    subst hnone
    have hconfirmed : ((d.step op).engine.debounce n).confirmed = (d.engine.debounce n).confirmed :=
      (Option.some.inj hlast).symm
    rw [hconfirmed]
    cases hsettle : finishesSettle (d, op) with
    | false =>
      have hsame := sameReported_of hsend hsettle
      rw [hsame.reportedLevels]
      exact h hbefore n (hsame.monitored ▸ hn)
    | true =>
      cases op with
      | task nowUs inputs =>
        obtain ⟨hmonitored, hreported⟩ := d.reported_settle hsettle inputs n
        have hmode := hmonitored.symm.trans hn
        have hnot : hasBit d.engine.settling n = false := by
          have hcond : ¬ (d.engine.settles nowUs = true ∧ hasBit d.engine.settling n = true) := fun hc =>
            Option.some_ne_none (hasBit inputs n) ((if_pos hc).symm.trans hsettled)
          simpa [show d.engine.settles nowUs = true from hsettle] using hcond
        have hbefore' : hasBit d.engine.monitored n = true := by
          rw [hinv.monitored, hasBit_inputMask, hinv.kept n hmode hnot]
          exact hmode
        rw [hreported hmode, hnot]
        exact h hbefore n hbefore'
      | _ => cases hsettle
  | some level =>
    cases op with
    | task nowUs inputs =>
      obtain ⟨⟨hsettles, hset⟩, ⟨⟩⟩ := Option.ite_none_right_eq_some.mp hsettled
      obtain ⟨hmonitored, hreported⟩ := d.reported_settle hsettles inputs n
      have hdebounce : (d.step (.task nowUs inputs)).engine.debounce n =
          Debounce.reset (hasBit inputs n) (d.engine.config.param n) := by
        rw [show d.action n (.task nowUs inputs) = _ from if_pos ⟨hsettles, hset⟩] at hview
        exact congrArg Prod.fst hview
      rw [hreported (hmonitored.symm.trans hn), hset, hdebounce]
      rfl
    | _ => cases hsettled

/-! ### Before the first settle -/

/-- The latch of a settle that has still to finish. -/
theorem settleActive_step (d : Device) (op : Op) :
    (d.step op).engine.settleActive =
      (!finishesSettle (d, op) && (d.engine.settleActive || changesConfig (d, op))) := by
  cases op with
  | onEdge gpio raw nowUs =>
    simp [step, finishesSettle, changesConfig, (d.engine.frame_onEdge gpio raw nowUs).settleActive]
  | resync raw nowUs =>
    simp [step, finishesSettle, changesConfig, (d.engine.frame_resync raw nowUs).settleActive]
  | task nowUs inputs =>
    have hpoll : ∀ e : Engine, (e.pollTask nowUs).settleActive = e.settleActive := fun e => by
      rw [← (e.frame_pollPins nowUs).settleActive, pollTask]
      split_ifs <;> rfl
    simp only [step, task_eq, hpoll, finishesSettle, changesConfig, Bool.or_false]
    cases hs : d.engine.settles nowUs
    · simp
    · simp [finishSettle_eq]
  | setPinConfig payload nowUs =>
    rcases d.engine.setPinConfig_cases payload nowUs with ⟨hc, heq⟩ | ⟨next, hc, ha⟩
    · simp [step, finishesSettle, changesConfig, heq, hc, recordResult]
    · simp [step, finishesSettle, changesConfig, ha.settleActive, hc]
  | output payload =>
    simp only [step, finishesSettle, changesConfig, output]
    split <;> simp
  | usbReset =>
    simp only [step, finishesSettle, changesConfig, usbReset]
    split_ifs <;> simp
  | send nowUs accepted =>
    rcases d.committed_send nowUs accepted with ⟨_, he⟩ | ⟨_, he⟩ <;>
      simp [he, handOver, stage, finishesSettle, changesConfig]
  | _ => simp [step, finishesSettle, changesConfig]

/-- While no pin is monitored nothing is recorded. -/
theorem history_step {d : Device} (h : d.Inv) (hnone : ∀ n, hasBit d.engine.monitored n = false) {op : Op}
    (hsend : ∀ nowUs accepted, op ≠ .send nowUs accepted) :
    (d.step op).engine.history = d.engine.history := by
  obtain ⟨new, hhistory, -, -, -⟩ := grows_step h hsend
  have hnew : new = [] := by
    refine List.eq_nil_iff_forall_not_mem.mpr fun c hc => ?_
    have htrack : d.engine.isTracking c.event.gpio = false := Bool.eq_false_iff.mpr fun htrack => by
      rw [isTracking_iff, hnone] at htrack
      cases htrack.1
    have hsame : (d.step op).engine.eventsOf c.event.gpio = d.engine.eventsOf c.event.gpio := by
      refine (congrArg Prod.snd (pinView_act h c.event.gpio op)).trans ?_
      cases haction : d.action c.event.gpio op with
      | none => rfl
      | some a =>
        cases causes_of_action haction with
        | onEdge raw nowUs ht => exact absurd (ht.symm.trans htrack) (by decide)
        | resync word nowUs ht hraw => exact absurd (ht.symm.trans htrack) (by decide)
        | poll nowUs inputs ht => exact absurd (ht.symm.trans htrack) (by decide)
        | settle nowUs inputs hs hset => rfl
        | retime payload nowUs next hnext hr => rfl
    rw [eventsOf, hhistory, List.map_append, List.filter_append, eventsOf] at hsame
    have hfilter := List.append_right_eq_self.mp hsame
    rw [List.filter_eq_nil_iff] at hfilter
    exact hfilter c.event (List.mem_map_of_mem hc) (decide_eq_true rfl)
  rw [hhistory, hnew, List.append_nil]

/-- While the settle at the start is the one to finish, no pin is monitored yet: none was reported as
    monitored, and no event is queued. -/
def Booting (d : Device) : Prop :=
  d.engine.settleActive = true → d.engine.configChanged = false →
    d.engine.queue.toList = [] ∧ (∀ n, hasBit d.engine.monitored n = false) ∧
      ∀ r ∈ d.sent, ∀ n, hasBit r.status.monitored n = false

theorem booting_step {d : Device} (hinv : d.Inv) (h : d.Booting) (op : Op) : (d.step op).Booting := by
  intro hactive hchanged
  rw [settleActive_step, Bool.and_eq_true, Bool.not_eq_true'] at hactive
  rw [configChanged_step, hactive.1, Bool.not_false, Bool.true_and, Bool.or_eq_false_iff] at hchanged
  rw [hchanged.2, Bool.or_false] at hactive
  obtain ⟨hempty, hnone, hsent⟩ := h hactive.2 hchanged.1
  by_cases hop : ∃ nowUs accepted, op = .send nowUs accepted
  · obtain ⟨nowUs, accepted, rfl⟩ := hop
    have hlist := sent_step d (.send nowUs accepted)
    rcases d.committed_send nowUs accepted with ⟨hc, he⟩ | ⟨hc, he⟩
    · rw [hc, Option.toList_some] at hlist
      rw [he, hlist, toList_handOver, hempty]
      refine ⟨rfl, hnone, fun r hr => ?_⟩
      rcases List.mem_append.mp hr with hr | hr
      · exact hsent r hr
      · rw [List.mem_singleton.mp hr]
        exact hnone
    · rw [hc, Option.toList_none, List.append_nil] at hlist
      rw [he, hlist]
      exact ⟨hempty, hnone, hsent⟩
  · have hsend : ∀ nowUs accepted, op ≠ .send nowUs accepted :=
      fun nowUs accepted heq => hop ⟨nowUs, accepted, heq⟩
    obtain ⟨new, hhistory, hqueue, -, -⟩ := grows_step hinv hsend
    have hnew : new = [] := by
      rw [history_step hinv hnone hsend] at hhistory
      exact List.self_eq_append_right.mp hhistory
    have hcommitted : d.committed op = none := by
      cases op with
      | send nowUs accepted => exact absurd rfl (hsend nowUs accepted)
      | _ => rfl
    refine ⟨?_, ?_, ?_⟩
    · rw [hqueue, hempty, hnew]
      rfl
    · rw [(sameReported_of hsend hactive.1).monitored]
      exact hnone
    · rw [sent_step, hcommitted, Option.toList_none, List.append_nil]
      exact hsent

/-- What every operation keeps. -/
structure Orderly (d : Device) : Prop where
  inv : d.Inv
  emptied : d.Emptied
  booting : d.Booting

theorem orderly_step (d : Device) (op : Op) (h : d.Orderly) : (d.step op).Orderly :=
  ⟨step_inv d op h.inv, emptied_step h.inv h.emptied op, booting_step h.inv h.booting op⟩

theorem orderly_start (info : DeviceInfo) (startUs : U64) : (start info startUs).Orderly := by
  have hnone : ∀ n, hasBit (start info startUs).engine.monitored n = false := by
    simp [start, init_eq, blank]
  refine ⟨inv_run info startUs [], fun _ n hn => ?_, fun _ _ => ⟨?_, hnone, fun r hr => ?_⟩⟩
  · rw [hnone] at hn
    cases hn
  · simp [start, init_eq, blank]
  · cases hr

/-! ### The reports of a run -/

/-- The reports that operations hand over. -/
def handed (d : Device) (ops : List Op) : List Sent :=
  (Lib.steps step d ops).filterMap fun x => x.1.committed x.2

theorem handed_cons (d : Device) (op : Op) (ops : List Op) :
    d.handed (op :: ops) = (d.committed op).toList ++ (d.step op).handed ops := by
  rw [handed, Lib.steps, List.filterMap_cons, handed]
  cases d.committed op <;> rfl

theorem sent_run (d : Device) (ops : List Op) : (Lib.run step d ops).sent = d.sent ++ d.handed ops := by
  induction ops generalizing d with
  | nil => exact (List.append_nil _).symm
  | cons op ops ih => rw [Lib.run_cons, ih, sent_step, handed_cons, List.append_assoc]

/-- What is left to tell after a report: the queue goes on from its levels. -/
structure After (r : Sent) (d : Device) : Prop where
  sent : r ∈ d.sent
  continues : ∀ n, hasBit d.engine.monitored n = true → d.engine.Continues n
  reported : ∀ n, hasBit r.status.monitored n = true →
    hasBit d.engine.monitored n = true ∧ hasBit d.engine.reportedLevels n = hasBit r.status.levels n

/-- No reason to tell of a changed configuration is pending, and no event is known to be lost. -/
def Clear (d : Device) : Prop :=
  hasFlag d.engine.pendingReasons reasonConfigChanged = false ∧ d.engine.queue.overflowed = false

/-- A report that tells of neither, and leaves nothing queued or is followed by one like it, found
    neither. -/
theorem clear_of_report {d : Device} {nowUs : U64} (hplain : (d.engine.report nowUs).plain = true)
    (hlast : d.engine.drains = true ∨ (d.engine.handOver nowUs).queue.overflowed = false) : d.Clear := by
  rw [Status.plain_iff, hasFlag_overflow] at hplain
  obtain ⟨hreason, hover⟩ := hplain
  refine ⟨?_, ?_⟩
  · rw [show (d.engine.report nowUs).reason = d.engine.reportReason from rfl, reportReason, hasFlag_or,
      Bool.or_eq_false_iff] at hreason
    exact hreason.1
  · rcases hlast with hdrains | hlatch
    · simpa [hdrains] using hover
    · have hlatch : (d.engine.queue.overflowed && !d.engine.drains) = false := hlatch
      cases hdrains : d.engine.drains with
      | true => simpa [hdrains] using hover
      | false => simpa [hdrains] using hlatch

/-- Both stay until a report tells of them. -/
theorem clear_of_step {d : Device} (hinv : d.Inv) {op : Op} (hcommitted : d.committed op = none)
    (h : (d.step op).Clear) : d.Clear ∧ (finishesSettle (d, op) && d.engine.configChanged) = false ∧
      ((∀ nowUs accepted, op ≠ .send nowUs accepted) → dropsEvent (d, op) = false) := by
  obtain ⟨hpending, hover⟩ := h
  have hnot : handsOver (d, op) = false := by rw [handsOver, hcommitted]; rfl
  rw [pendingReasons_step, hnot, if_neg Bool.false_ne_true, hasFlag_or,
    (hasFlag_addedReasons d op).2.2.2.2.1, Bool.or_eq_false_iff] at hpending
  refine ⟨⟨hpending.1, ?_⟩, hpending.2, fun hsend => ?_⟩
  · by_cases hop : ∃ nowUs accepted, op = .send nowUs accepted
    · obtain ⟨nowUs, accepted, rfl⟩ := hop
      rcases d.committed_send nowUs accepted with ⟨hc, -⟩ | ⟨-, he⟩
      · exact absurd (hcommitted.symm.trans hc) (by simp)
      · rwa [he] at hover
    · rw [dropsEvent_of_grows (grows_step hinv fun nowUs accepted heq => hop ⟨nowUs, accepted, heq⟩),
        Bool.or_eq_false_iff] at hover
      exact hover.1
  · rw [dropsEvent_of_grows (grows_step hinv hsend), Bool.or_eq_false_iff] at hover
    exact hover.2

/-- Before reports that tell of neither, the last of which leaves nothing queued, there was neither. -/
theorem clear_of_handed : ∀ (ops : List Op) {d : Device} {reports later : List Sent}, d.Inv →
    d.handed ops = reports ++ later → reports ≠ [] → (∀ s ∈ reports, s.status.plain = true) →
    (∀ s ∈ reports.getLast?, hasFlag s.status.flags flagMoreEvents = false) → d.Clear
  | [], d, reports, later, _, heq, hne, _, _ => absurd (List.append_eq_nil_iff.mp heq.symm).1 hne
  | op :: ops, d, reports, later, hinv, heq, hne, hplain, hlast => by
    have hinv' := step_inv d op hinv
    rw [handed_cons] at heq
    cases hcommitted : d.committed op with
    | none =>
      rw [hcommitted] at heq
      exact (clear_of_step hinv hcommitted (clear_of_handed ops hinv' heq hne hplain hlast)).1
    | some s =>
      obtain ⟨s', rest, rfl⟩ := List.exists_cons_of_ne_nil hne
      rw [hcommitted] at heq
      obtain ⟨rfl, hrest⟩ := List.cons.inj heq
      obtain ⟨hs, hplain'⟩ := List.forall_mem_cons.mp hplain
      obtain ⟨nowUs, accepted, rfl, rfl, -, he⟩ := committed_eq_some hcommitted
      refine clear_of_report hs ?_
      cases rest with
      | nil =>
        have hmore : hasFlag (d.engine.report nowUs).flags flagMoreEvents = false := hlast _ rfl
        rw [hasFlag_moreEvents, Bool.not_eq_false'] at hmore
        exact Or.inl hmore
      | cons s'' rest =>
        have hclear := clear_of_handed ops hinv' hrest (List.cons_ne_nil _ _) hplain' hlast
        rw [Clear, he] at hclear
        exact Or.inr hclear.2

theorem after_step {d : Device} {r : Sent} {op : Op} (h : d.Orderly) (hr : d.After r)
    (hcommitted : d.committed op = none) (hclear : (d.step op).Clear) : (d.step op).After r := by
  obtain ⟨-, hchanged, hroom⟩ := clear_of_step h.inv hcommitted hclear
  have hsent : r ∈ (d.step op).sent := by
    rw [sent_step]
    exact List.mem_append_left _ hr.sent
  by_cases hop : ∃ nowUs accepted, op = .send nowUs accepted
  · obtain ⟨nowUs, accepted, rfl⟩ := hop
    rcases d.committed_send nowUs accepted with ⟨hc, -⟩ | ⟨-, he⟩
    · exact absurd (hcommitted.symm.trans hc) (by simp)
    · refine ⟨hsent, ?_, ?_⟩
      · rw [he]
        exact hr.continues
      · rw [he]
        exact hr.reported
  have hsend : ∀ nowUs accepted, op ≠ .send nowUs accepted :=
    fun nowUs accepted heq => hop ⟨nowUs, accepted, heq⟩
  cases hsettle : finishesSettle (d, op) with
  | false =>
    have hsame := sameReported_of hsend hsettle
    refine ⟨hsent, fun n hn => ?_, ?_⟩
    · rw [hsame.monitored] at hn
      exact continues_step h.inv hsend hsettle (hroom hsend) (hr.continues n hn)
    · rw [hsame.monitored, hsame.reportedLevels]
      exact hr.reported
  | true =>
    have hactive : d.engine.settleActive = true := by
      cases op with
      | task nowUs inputs => exact (Bool.and_eq_true_iff.mp hsettle).1
      | _ => cases hsettle
    have hunchanged : d.engine.configChanged = false := by simpa [hsettle] using hchanged
    obtain ⟨hempty, hnone, hbefore⟩ := h.booting hactive hunchanged
    obtain ⟨new, hhistory, hqueue, -, -⟩ := grows_step h.inv hsend
    have hnew : new = [] := by
      rw [history_step h.inv hnone hsend] at hhistory
      exact List.self_eq_append_right.mp hhistory
    rw [hempty, hnew] at hqueue
    refine ⟨hsent, fun n hn => (orderly_step d op h).emptied.continues hqueue hn, fun n hn => ?_⟩
    exact absurd (hn.symm.trans (hbefore r hr.sent n)) (by decide)

/-- What is left after a report that was handed over when the queue went on. -/
theorem after_handOver {d : Device} {r : Sent} {op : Op} (hinv : d.Inv)
    (hcommitted : d.committed op = some r)
    (hcontinues : ∀ n, hasBit d.engine.monitored n = true → (d.step op).engine.Continues n) :
    (d.step op).After r := by
  have hsent := sent_step d op
  rw [hcommitted] at hsent
  obtain ⟨nowUs, accepted, rfl, rfl, -, he⟩ := committed_eq_some hcommitted
  refine ⟨?_, ?_, fun n hn => ?_⟩
  · rw [hsent]
    exact List.mem_append_right _ List.mem_cons_self
  · rw [he] at hcontinues ⊢
    exact hcontinues
  · rw [he]
    exact ⟨hn, (hasBit_report hinv hn nowUs).symm⟩

theorem goesOn_handed : ∀ (ops : List Op) {d : Device} {r : Sent} {reports later : List Sent}, d.Orderly →
    d.After r → d.handed ops = reports ++ later → (∀ s ∈ reports, s.status.plain = true) →
    (∀ s ∈ reports.getLast?, hasFlag s.status.flags flagMoreEvents = false) →
    (r :: reports).IsChain fun r r' => r.status.GoesOn r'.status
  | _, _, r, [], _, _, _, _, _, _ => List.isChain_singleton r
  | [], _, _, s :: reports, _, _, _, heq, _, _ => by cases heq
  | op :: ops, d, r, s :: reports, later, h, hr, heq, hplain, hlast => by
    have hclear := clear_of_handed (op :: ops) h.inv heq (List.cons_ne_nil _ _) hplain hlast
    have h' := orderly_step d op h
    rw [handed_cons] at heq
    cases hcommitted : d.committed op with
    | none =>
      rw [hcommitted] at heq
      have hclear' := clear_of_handed ops h'.inv heq (List.cons_ne_nil _ _) hplain hlast
      exact goesOn_handed ops h' (after_step h hr hcommitted hclear') heq hplain hlast
    | some s' =>
      rw [hcommitted] at heq
      obtain ⟨rfl, hrest⟩ := List.cons.inj heq
      obtain ⟨-, hplain'⟩ := List.forall_mem_cons.mp hplain
      obtain ⟨nowUs, accepted, rfl, rfl, -, he⟩ := committed_eq_some hcommitted
      have hsent := fun n hn => (hr.continues n hn).handOver h.inv hn nowUs
      have hafter := after_handOver h.inv hcommitted fun n hn => by
        rw [he]
        exact (hsent n hn).1
      refine List.isChain_cons_cons.mpr ⟨fun n hn => ?_, goesOn_handed ops h' hafter hrest hplain' ?_⟩
      · obtain ⟨hmonitored, hlevel⟩ := hr.reported n hn
        rw [← hlevel]
        exact ⟨hmonitored, (hsent n hmonitored).2⟩
      · cases reports with
        | nil => simp
        | cons s'' reports => exact hlast

theorem goesOn_from :
    ∀ (ops : List Op) {d : Device} {past : List Sent} {r : Sent} {reports later : List Sent},
      d.Orderly → d.handed ops = past ++ r :: (reports ++ later) →
    hasFlag r.status.flags flagMoreEvents = false → (∀ s ∈ reports, s.status.plain = true) →
    (∀ s ∈ reports.getLast?, hasFlag s.status.flags flagMoreEvents = false) →
    (r :: reports).IsChain fun r r' => r.status.GoesOn r'.status
  | [], _, _, _, _, _, _, heq, _, _, _ =>
    absurd (List.append_eq_nil_iff.mp heq.symm).2 (List.cons_ne_nil _ _)
  | op :: ops, d, past, r, reports, later, h, heq, hmore, hplain, hlast => by
    have h' := orderly_step d op h
    rw [handed_cons] at heq
    cases hcommitted : d.committed op with
    | none =>
      rw [hcommitted] at heq
      exact goesOn_from ops h' heq hmore hplain hlast
    | some s =>
      rw [hcommitted] at heq
      cases past with
      | cons p past =>
        obtain ⟨-, heq⟩ := List.cons.inj heq
        exact goesOn_from ops h' heq hmore hplain hlast
      | nil =>
        obtain ⟨rfl, hrest⟩ := List.cons.inj heq
        refine goesOn_handed ops h' (after_handOver h.inv hcommitted fun n hn => ?_) hrest hplain hlast
        obtain ⟨nowUs, accepted, rfl, rfl, -, he⟩ := committed_eq_some hcommitted
        rw [hasFlag_moreEvents, Bool.not_eq_false'] at hmore
        refine h'.emptied.continues ?_ ?_
        · rw [he, toList_handOver]
          exact List.drop_of_length_le (of_decide_eq_true hmore)
        · rw [he]
          exact hn

/-- In every run, whenever a report leaves nothing queued, and of the reports after it none tells of a
    changed configuration or of a loss and the last leaves nothing queued, each of them tells how the pins of
    the one before it went on. -/
theorem reports_go_on (info : DeviceInfo) (startUs : U64) (ops : List Op) (past : List Sent) (r : Sent)
    (reports later : List Sent)
    (hsent : (Lib.run step (start info startUs) ops).sent = past ++ r :: (reports ++ later))
    (hmore : hasFlag r.status.flags flagMoreEvents = false) (hplain : ∀ s ∈ reports, s.status.plain = true)
    (hlast : ∀ s ∈ reports.getLast?, hasFlag s.status.flags flagMoreEvents = false) :
    (r :: reports).IsChain fun r r' => r.status.GoesOn r'.status := by
  rw [sent_run] at hsent
  exact goesOn_from ops (orderly_start info startUs) hsent hmore hplain hlast

/-- After a periodic report eight inputs go low at once, and the first one goes high again before the second
    of two reports. -/
def eightFalls : List Op :=
  [.task 1000 0xFF, .task 1000000 0xFF, .send 1000000 true] ++
    List.ofFn (fun n : Fin 8 => Op.onEdge (BitVec.ofNat 8 n.val) false 1000100) ++
    [.task 1020200 0, .send 1020200 true, .onEdge 0 true 1030000, .task 1050000 1, .send 1050000 true]

theorem reports_go_on_run :
    (Lib.run step (start (sampleInfo 0xFF) 0) eightFalls).sent.map (fun r => r.status.events.length) =
        [0, 7, 2] ∧
      (Lib.run step (start (sampleInfo 0xFF) 0) eightFalls).sent.IsChain fun r r' =>
        r.status.GoesOn r'.status := by
  have hne : (Lib.run step (start (sampleInfo 0xFF) 0) eightFalls).sent ≠ [] := by decide +kernel
  have hmore : ∀ r ∈ (Lib.run step (start (sampleInfo 0xFF) 0) eightFalls).sent.head?,
      hasFlag r.status.flags flagMoreEvents = false := by decide +kernel
  refine ⟨by decide +kernel, ?_⟩
  rw [← List.cons_head_tail hne]
  exact reports_go_on (sampleInfo 0xFF) 0 eightFalls [] _ _ [] (by simp)
    (hmore _ (List.head?_eq_some_head hne)) (by decide +kernel) (by decide +kernel)

end Device

end Hidpin.Firmware
