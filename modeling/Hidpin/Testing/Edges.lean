import Hidpin.Testing.Sets

/-! Electrical changes, periodic reports and power on the simulated board and on the firmware. -/

namespace Hidpin.Testing
open Host (PinConfig)
open Firmware (Device Op Engine Gpio hasBit Low modeIsInput modeOutput inputMask outputMask)
open Firmware.Device (Timed)
open Hidpin.System (Move hostReport)

/-- Polling with one pin pending. -/
theorem pollPins_one {e : Engine} {n : Gpio}
    (h : ∀ m, m ≠ n → e.isTracking m = true → (e.debounce m).pending = false)
    (nowUs : U64) : e.pollPins nowUs = e.pollPin nowUs n := by
  have key : ∀ (l : List Gpio) (e : Engine), l.Nodup →
      (∀ m, m ≠ n → e.isTracking m = true → (e.debounce m).pending = false) →
      l.foldl (fun e m => e.pollPin nowUs m) e = if n ∈ l then e.pollPin nowUs n else e := by
    intro l
    induction l with
    | nil => simp
    | cons m l ih =>
      intro e hnd h
      rw [List.nodup_cons] at hnd
      rw [List.foldl_cons]
      by_cases hm : m = n
      · subst hm
        rw [if_pos List.mem_cons_self, ih _ hnd.2, if_neg hnd.1]
        intro k hk ht
        rw [Engine.pollPin_eq_observe] at ht ⊢
        split_ifs at ht ⊢
        · rw [(e.frame_observe m _).isTracking] at ht
          rw [Engine.debounce_observe, Function.update_of_ne hk]
          exact h k hk ht
        · exact h k hk ht
      · rw [Engine.pollPin_idle (h m hm), ih e hnd.2 h]
        simp [Ne.symm hm]
  exact (key _ e (List.nodup_finRange _) h).trans (if_pos (List.mem_finRange n))

/-- The debounce time of a pin in µs. -/
def BoardState.debounceUs (s : BoardState) (n : Gpio) : U64 := (s.config n).param.setWidth 64 * 1000

theorem toNat_debounceUs (s : BoardState) (n : Gpio) :
    (s.debounceUs n).toNat = (s.config n).param.toNat * 1000 := by
  have hlt := (s.config n).param.isLt
  rw [BoardState.debounceUs, BitVec.toNat_mul, BitVec.toNat_setWidth,
    show (1000 : U64).toNat = 1000 from rfl,
    Nat.mod_eq_of_lt (hlt.trans (by decide)), Nat.mod_eq_of_lt (by omega)]

/-- The age of an event that is reported when its debounce time is over. -/
theorem eventAge_debounceUs (s : BoardState) (n : Gpio) {nowUs : U64}
    (hwrap : nowUs.toNat + 255000 < 2 ^ 64) :
    Firmware.eventAge (nowUs + s.debounceUs n) nowUs = (s.config n).param.setWidth 32 * 1000 := by
  have hlt := (s.config n).param.isLt
  have htime := toNat_debounceUs s n
  have hlate : (nowUs + s.debounceUs n).toNat = nowUs.toNat + (s.config n).param.toNat * 1000 := by
    rw [BitVec.toNat_add, htime, Nat.mod_eq_of_lt (by omega)]
  have hage : ((s.config n).param.setWidth 32 * 1000 : U32).toNat = (s.config n).param.toNat * 1000 := by
    rw [BitVec.toNat_mul, BitVec.toNat_setWidth, show (1000 : U32).toNat = 1000 from rfl,
      Nat.mod_eq_of_lt (hlt.trans (by decide)), Nat.mod_eq_of_lt (by omega)]
  have hpassed : nowUs + s.debounceUs n - nowUs = s.debounceUs n := by
    rw [BitVec.add_comm, BitVec.add_sub_cancel]
  have hshort : ¬ s.debounceUs n > 0xFFFFFFFF := by
    rw [gt_iff_lt, BitVec.lt_def, htime, show (0xFFFFFFFF : U64).toNat = 4294967295 from rfl]
    omega
  have hwidth : (s.debounceUs n).setWidth 32 = (s.config n).param.setWidth 32 * 1000 := by
    refine BitVec.eq_of_toNat_eq ?_
    rw [BitVec.toNat_setWidth, htime, hage, Nat.mod_eq_of_lt (by omega)]
  rw [Firmware.eventAge]
  by_cases hearly : nowUs ≥ nowUs + s.debounceUs n
  · rw [if_pos hearly]
    rw [ge_iff_le, BitVec.le_def, hlate] at hearly
    refine BitVec.eq_of_toNat_eq ?_
    rw [hage, show (0 : U32).toNat = 0 from rfl]
    omega
  · rw [if_neg hearly, hpassed]
    exact (if_neg hshort).trans hwidth

namespace Mirrors
variable {s : BoardState} {d : Device} {reasons : U8} {events : List Firmware.EdgeEvent}

/-! ### Electrical changes -/

/-- What a confirmed change does to both. -/
theorem confirmed (h : Mirrors 0 [] s d) {n : Gpio} {high : Bool} (hn : (s.config n).isMonitored = true)
    {nowUs : U64} {d' : Device} (hinv : d'.Inv) (htimed : Timed d'.engine) (hsent : d'.sent = d.sent)
    (hframe : Firmware.Frame d.engine d'.engine)
    (hqueue : d'.engine.queue = d.engine.queue.push ⟨n, high, nowUs⟩)
    (hother : ∀ m, m ≠ n → d'.engine.debounce m = d.engine.debounce m)
    (hself : (d'.engine.debounce n).confirmed = high ∧ (d'.engine.debounce n).pending = false) :
    Mirrors 0 [⟨n, high, nowUs⟩]
      { s.putInput n high with
        levels := s.levels &&& ~~~gpioBit n ||| (s.putInput n high).inputs &&& gpioBit n } d' := by
  have hlevels : ∀ m, hasBit (s.levels &&& ~~~gpioBit n ||| (s.putInput n high).inputs &&& gpioBit n) m =
      if m = n then high else hasBit s.levels m := fun m => by
    by_cases hm : m = n
    · subst hm
      simp [hasBit_putInput]
    · simp [hm]
  have hlist := d.engine.queue.toList_push ⟨n, high, nowUs⟩
  have hroom := d.engine.queue.overflowed_push ⟨n, high, nowUs⟩
  rw [← hqueue, h.events] at hlist hroom
  exact
    { inv := hinv
      timed := htimed
      steady := ⟨hframe.settleActive.trans h.steady.idle, fun m hm => by
        rw [hframe.config] at hm
        rw [hasBit_putInput]
        by_cases hmn : m = n
        · subst hmn
          rw [if_pos rfl]
          exact hself
        · rw [if_neg hmn, hother m hmn]
          exact h.steady.agree m hm⟩
      reasons := hframe.pendingReasons.trans h.reasons
      events := hlist
      room := by rw [hroom, h.room]; rfl
      info := hframe.info.trans h.info
      config := h.config.trans hframe.config.symm
      result := h.result.trans (congrArg Engine.result hframe :).symm
      resultGpio := h.resultGpio.trans (congrArg Engine.resultGpio hframe :).symm
      requestId := h.requestId.trans (congrArg Engine.requestId hframe :).symm
      input := fun m hm => by
        rw [hlevels, hasBit_putInput]
        split_ifs
        · rfl
        · exact h.input m hm
      output := fun m hm => by
        have hmn : m ≠ n := fun hmn => by
          subst hmn
          exact Bool.false_ne_true ((not_monitored hm).symm.trans hn)
        rw [hlevels, if_neg hmn, hframe.outputLevels]
        exact h.output m hm
      unused := fun m hm hm' => by
        have hmn : m ≠ n := fun hmn => by
          subst hmn
          exact Bool.false_ne_true (Eq.trans (Eq.symm hm) hn)
        rw [hlevels, if_neg hmn]
        exact h.unused m hm hm'
      low := low_or (low_and_left h.low _) (low_and_right _ (low_bit n))
      overflow := h.overflow
      nextSeq := h.nextSeq.trans (congrArg Engine.nextSeq hframe :).symm
      lastSeq := h.lastSeq.trans (congrArg (fun e => if e.hasSent then e.lastSeq else 0) hframe :).symm
      sent := by rw [hsent]; exact h.sent }

/-- An edge of a monitored pin and the turn of the loop that confirms it. -/
theorem edge (h : Mirrors 0 [] s d) {n : Gpio} {high : Bool} (hn : (s.config n).isMonitored = true)
    (hne : hasBit s.inputs n ≠ high) {nowUs : U64}
    (hdue : d.engine.periodicDue (nowUs + s.debounceUs n) = false)
    (hwrap : nowUs.toNat + 255000 < 2 ^ 64) (inputs : U32) :
    Mirrors 0 [⟨n, high, nowUs⟩]
      { s.putInput n high with
        levels := s.levels &&& ~~~gpioBit n ||| (s.putInput n high).inputs &&& gpioBit n }
      (Lib.run Device.step d [.onEdge n.toU8 high nowUs, .task (nowUs + s.debounceUs n) inputs]) := by
  have hinput : modeIsInput (d.engine.config.mode n) = true := by rw [← h.isMonitored, hn]
  obtain ⟨hconfirmed, hpending⟩ := h.steady.agree n hinput
  have hsettled := (h.inv.settled h.steady.idle).1
  have htracked : d.engine.isTracking n = true := by
    rw [Engine.isTracking_iff, h.masks.1, monitoredMask_eq, h.config, Firmware.hasBit_inputMask]
    exact ⟨hinput, hsettled n, hinput⟩
  have hparam : d.engine.config.param n = (s.config n).param := by rw [← h.config]; rfl
  have htime : (d.engine.debounce n).debounceUs = Firmware.Device.debounceTime (s.config n).param := by
    rw [h.timed n hinput (hsettled n), hparam]
  have hparam255 := (s.config n).param.isLt
  have hlate : (nowUs + s.debounceUs n).toNat = nowUs.toNat + (s.debounceUs n).toNat := by
    rw [BitVec.toNat_add, toNat_debounceUs, Nat.mod_eq_of_lt (by omega)]
  have hedge : (d.step (.onEdge n.toU8 high nowUs)).engine =
      d.engine.observe n ((d.engine.debounce n).edge high nowUs) := by
    rw [← Engine.edgeAt_eq_observe]
    simp only [Device.step, Engine.onEdge_toU8, htracked, if_true]
  have hframe : Firmware.Frame d.engine (d.step (.onEdge n.toU8 high nowUs)).engine :=
    d.engine.frame_onEdge _ _ _
  have hinv₁ := Device.step_inv d (.onEdge n.toU8 high nowUs) h.inv
  have htimed₁ := Device.timed_step d (.onEdge n.toU8 high nowUs) h.timed
  have hdue₁ : (d.step (.onEdge n.toU8 high nowUs)).engine.periodicDue (nowUs + s.debounceUs n) = false := by
    simpa only [Engine.periodicDue, hframe.lastSentUs] using hdue
  have hsent₁ : (d.step (.onEdge n.toU8 high nowUs)).sent = d.sent := by
    simp [Device.sent_step, Device.committed]
  have hchange : high ≠ (d.engine.debounce n).confirmed := by rw [hconfirmed]; exact Ne.symm hne
  rw [Lib.run_cons, Lib.run_cons, Lib.run_nil]
  by_cases hzero : (d.engine.debounce n).debounceUs = 0
  · -- without chattering removal the edge is the event
    have hnow : (d.engine.debounce n).edge high nowUs =
        ({ d.engine.debounce n with
            raw := high, lastChangeUs := nowUs, confirmed := high, pending := false }, some nowUs) :=
      (if_neg hchange).trans (if_pos hzero)
    rw [hnow] at hedge
    refine Mirrors.task (h.confirmed hn hinv₁ htimed₁ hsent₁ hframe ?_ (fun m hm => ?_) ?_) hdue₁ inputs
    · rw [hedge]
      rfl
    · rw [hedge, Engine.debounce_observe, Function.update_of_ne hm]
    · rw [hedge, Engine.debounce_observe, Function.update_self]
      exact ⟨rfl, rfl⟩
  · have hnow : (d.engine.debounce n).edge high nowUs =
        ({ d.engine.debounce n with raw := high, lastChangeUs := nowUs, pending := true }, none) :=
      (if_neg hchange).trans (if_neg hzero)
    rw [hnow] at hedge
    generalize d.step (.onEdge n.toU8 high nowUs) = d₁ at *
    have hdebounce : ∀ m, m ≠ n → d₁.engine.debounce m = d.engine.debounce m := fun m hm => by
      rw [hedge, Engine.debounce_observe, Function.update_of_ne hm]
    have hwaits : Device.Waits (d₁.engine.debounce n) high nowUs (s.config n).param := by
      rw [hedge, Engine.debounce_observe, Function.update_self]
      exact ⟨rfl, rfl, rfl, htime⟩
    have hpoll := hwaits.poll (nowUs + s.debounceUs n)
    rw [if_pos (by rw [hlate, toNat_debounceUs]; omega)] at hpoll
    have hone : d₁.engine.pollPins (nowUs + s.debounceUs n) =
        d₁.engine.observe n ({ d₁.engine.debounce n with confirmed := high, pending := false },
          some nowUs) := by
      rw [pollPins_one fun m hm ht => ?_, Engine.pollPin_eq_observe, hframe.isTracking, htracked,
        if_pos rfl, hpoll]
      rw [hdebounce m hm]
      rw [hframe.isTracking] at ht
      exact (h.steady.agree m ((Engine.isTracking_iff _ m).mp ht).2.2).2
    have hsettles : d₁.engine.settles (nowUs + s.debounceUs n) = false := by
      rw [Engine.settles, hframe.settleActive, h.steady.idle, Bool.false_and]
    have hinv₂ := Device.step_inv d₁ (.task (nowUs + s.debounceUs n) inputs) hinv₁
    have htimed₂ := Device.timed_step d₁ (.task (nowUs + s.debounceUs n) inputs) htimed₁
    have hsent₂ : (d₁.step (.task (nowUs + s.debounceUs n) inputs)).sent = d.sent := by
      simp [Device.sent_step, Device.committed, hsent₁]
    have htask : (d₁.step (.task (nowUs + s.debounceUs n) inputs)).engine =
        d₁.engine.observe n ({ d₁.engine.debounce n with confirmed := high, pending := false },
          some nowUs) := by
      have hlater : (d₁.engine.pollPins (nowUs + s.debounceUs n)).periodicDue
          (nowUs + s.debounceUs n) = false := by
        simpa only [Engine.periodicDue, (d₁.engine.frame_pollPins _).lastSentUs] using hdue₁
      rw [Device.step, Engine.task_eq, hsettles, if_neg Bool.false_ne_true, Engine.pollTask, hlater,
        if_neg Bool.false_ne_true, hone]
    refine h.confirmed hn hinv₂ htimed₂ hsent₂ ?_ ?_ (fun m hm => ?_) ?_
    · rw [htask]
      exact hframe.trans (d₁.engine.frame_observe n _)
    · rw [htask]
      exact congrArg (fun q => Firmware.EventQueue.push q ⟨n, high, nowUs⟩)
        (congrArg (fun e => e.queue) hedge)
    · rw [htask, Engine.debounce_observe, Function.update_of_ne hm]
      exact hdebounce m hm
    · rw [htask, Engine.debounce_observe, Function.update_self]
      exact ⟨rfl, rfl⟩

/-- A value that the firmware does not look at, or that does not change. -/
theorem putInput (h : Mirrors reasons events s d) {n : Gpio} {high : Bool}
    (hsame : (s.config n).isMonitored = true → hasBit s.inputs n = high) :
    Mirrors reasons events (s.putInput n high) d := by
  have hput : ∀ m, (s.config m).isMonitored = true →
      hasBit (s.putInput n high).inputs m = hasBit s.inputs m :=
    fun m hm => by
      rw [hasBit_putInput]
      split_ifs with hmn
      · subst hmn
        exact (hsame hm).symm
      · rfl
  exact
    { h with
      steady := ⟨h.steady.idle, fun m hm => by
        rw [hput m (by rw [h.isMonitored, hm])]
        exact h.steady.agree m hm⟩
      input := fun m hm => (h.input m hm).trans (hput m hm).symm }

/-- An electrical change, from the edge to the report. -/
theorem setInput (h : Mirrors 0 [] s d) (hpowered : s.powered = true) {n : Gpio} {high : Bool}
    (hn : (s.config n).isMonitored = true) (hne : hasBit s.inputs n ≠ high) {nowUs : U64}
    (hdue : d.engine.periodicDue (nowUs + s.debounceUs n) = false) (hwrap : nowUs.toNat + 255000 < 2 ^ 64)
    (inputs : U32) : Mirrors 0 [] (s.setInput n high) (Lib.run Device.step d [.onEdge n.toU8 high nowUs,
      .task (nowUs + s.debounceUs n) inputs, .send (nowUs + s.debounceUs n) true]) := by
  have hsends : s.setInput n high = ({ s.putInput n high with
      levels := s.levels &&& ~~~gpioBit n ||| (s.putInput n high).inputs &&& gpioBit n }).send
        Host.Reason.levelChanged
      [⟨n.toU8, high, (s.config n).param.setWidth 32 * 1000⟩] := by
    have hdiffers : ¬ (s.putInput n high).levels &&& gpioBit n = (s.putInput n high).inputs &&&
        gpioBit n := by
      rw [and_bit_eq_iff, hasBit_putInput, if_pos rfl, show (s.putInput n high).levels = s.levels from rfl,
        h.input n hn]
      exact hne
    have hpow : (s.putInput n high).powered = true := hpowered
    have hmon : ((s.putInput n high).config n).isMonitored = true := hn
    exact if_neg (by simp [hpow, hmon, hdiffers])
  have hsent := (h.edge hn hne hdue hwrap inputs).send
    (show 1 ≤ Firmware.eventsPerReport by decide) (Or.inr (List.cons_ne_nil _ _)) (nowUs + s.debounceUs n)
  have hevents : [(⟨n, high, nowUs⟩ : Firmware.EdgeEvent)].map (eventAt (nowUs + s.debounceUs n)) =
      [⟨n.toU8, high, (s.config n).param.setWidth 32 * 1000⟩] := by
    rw [List.map_singleton, eventAt, eventAge_debounceUs s n hwrap]
  have hreason : 0 ||| Host.Reason.levelChanged = Host.Reason.levelChanged := by decide
  rw [hevents, List.length_singleton, if_pos Nat.zero_lt_one, hreason] at hsent
  rw [hsends]
  exact hsent

/-! ### Periodic reports -/

/-- A turn of the loop that finds the periodic report due. -/
theorem periodic (h : Mirrors 0 [] s d) {nowUs : U64} (hdue : d.engine.periodicDue nowUs = true)
    (inputs : U32) : Mirrors 0 [] s.periodic
      (Lib.run Device.step d [.task nowUs inputs, .send nowUs true]) :=
  (h.task_due hdue inputs).send (Nat.zero_le _) (Or.inl (by decide)) nowUs

/-- The host does not hear of a skipped report, but the board counts it. -/
theorem skip_one (h : Mirrors 0 [] s d) {nowUs : U64} (hdue : d.engine.periodicDue nowUs = true)
    (inputs : U32) : Mirrors 0 [] (s.skipReports 1)
      (Lib.run Device.step d [.task nowUs inputs, .send nowUs true]) := by
  refine (h.periodic hdue inputs).congr ?_ ?_
  · have hlast : s.nextSeq + 1 - 1 = s.nextSeq := BitVec.add_sub_cancel _ _
    simp only [BoardState.core, BoardState.skipReports, BoardState.periodic, BoardState.send,
      BoardState.deliver, BoardState.status, hlast, h.overflow]
  · rw [BoardState.periodic, sent_send h.overflow]
    simp [BoardState.skipReports, BoardState.skipped, BoardState.status, untimed]

/-- The report leaves with the turn. -/
theorem lastSentUs_periodic (h : Mirrors 0 [] s d) {nowUs : U64} (hdue : d.engine.periodicDue nowUs = true)
    (inputs : U32) :
    (Lib.run Device.step d [.task nowUs inputs, .send nowUs true]).engine.lastSentUs = nowUs := by
  rcases (d.step (.task nowUs inputs)).lastSentUs_send nowUs with hsent | ⟨hzero, -⟩
  · exact hsent
  · have hreasons := (h.task_due hdue inputs).reasons
    rw [hzero] at hreasons
    exact absurd hreasons (by decide)

end Mirrors

theorem due (e : Engine) : e.periodicDue (e.lastSentUs + 1000000) = true := by
  have hpassed : e.lastSentUs + 1000000 - e.lastSentUs = 1000000 := by
    rw [BitVec.add_comm, BitVec.add_sub_cancel]
  rw [Engine.periodicDue, hpassed]
  decide

theorem not_due {e : Engine} {wait : U64} (h : wait.toNat < 1000000) :
    e.periodicDue (e.lastSentUs + wait) = false := by
  have hpassed : e.lastSentUs + wait - e.lastSentUs = wait := by rw [BitVec.add_comm, BitVec.add_sub_cancel]
  have hinterval : Firmware.periodicIntervalUs.toNat = 1000000 := by decide
  rw [Engine.periodicDue, hpassed, decide_eq_false_iff_not, ge_iff_le, BitVec.le_def, hinterval]
  omega

/-- A turn of the loop at the end of which the endpoint takes a report. -/
def turn (inputs : U32) (nowUs : U64) : List Op := [.task nowUs inputs, .send nowUs true]

/-- The turns in which the reports that the host never reads leave, a second apart. -/
def skippedTurns (inputs : U32) (lastUs : U64) (k : ℕ) : List Op :=
  (List.range k).flatMap fun i => turn inputs (lastUs + BitVec.ofNat 64 ((i + 1) * 1000000))

theorem skippedTurns_succ (inputs : U32) (lastUs : U64) (k : ℕ) :
    skippedTurns inputs lastUs (k + 1) =
      skippedTurns inputs lastUs k ++ turn inputs (lastUs + BitVec.ofNat 64 ((k + 1) * 1000000)) := by
  simp [skippedTurns, List.range_succ]

namespace Mirrors
variable {s : BoardState} {d : Device}

/-- One skipped report after another. -/
theorem skip (h : Mirrors 0 [] s d) (inputs : U32) {k : ℕ} (hk : k < 65535) :
    Mirrors 0 [] (s.skipReports (BitVec.ofNat 16 (k + 1)))
        (Lib.run Device.step d (skippedTurns inputs d.engine.lastSentUs (k + 1))) ∧
      (Lib.run Device.step d (skippedTurns inputs d.engine.lastSentUs (k + 1))).engine.lastSentUs =
        d.engine.lastSentUs + BitVec.ofNat 64 ((k + 1) * 1000000) := by
  induction k with
  | zero =>
    have hone : skippedTurns inputs d.engine.lastSentUs (0 + 1) =
        turn inputs (d.engine.lastSentUs + 1000000) := rfl
    rw [hone]
    exact ⟨h.skip_one (due _) inputs, h.lastSentUs_periodic (due _) inputs⟩
  | succ k ih =>
    obtain ⟨hskipped, hlast⟩ := ih (by omega)
    rw [skippedTurns_succ, Lib.run_append]
    generalize Lib.run Device.step d (skippedTurns inputs d.engine.lastSentUs (k + 1)) = d'
      at hskipped hlast ⊢
    have hnext : d.engine.lastSentUs + BitVec.ofNat 64 ((k + 1 + 1) * 1000000) =
        d'.engine.lastSentUs + 1000000 := by
      rw [hlast, BitVec.add_assoc, Nat.succ_mul (k + 1), BitVec.ofNat_add]
      rfl
    have hdue : d'.engine.periodicDue (d.engine.lastSentUs + BitVec.ofNat 64 ((k + 1 + 1) * 1000000)) =
        true := by
      rw [hnext]
      exact due _
    refine ⟨(hskipped.skip_one hdue inputs).congr ?_ ?_, hskipped.lastSentUs_periodic hdue inputs⟩
    · have hsum : BitVec.ofNat 16 (k + 1 + 1) = BitVec.ofNat 16 (k + 1) + 1 := BitVec.ofNat_add _ 1
      simp only [BoardState.core, BoardState.skipReports, hsum, ← BitVec.add_assoc]
    · have hlen : (BitVec.ofNat 16 (k + 1)).toNat = k + 1 := by
        rw [BitVec.toNat_ofNat, Nat.mod_eq_of_lt (by omega)]
      have hlen' : (BitVec.ofNat 16 (k + 1 + 1)).toNat = k + 1 + 1 := by
        rw [BitVec.toNat_ofNat, Nat.mod_eq_of_lt (by omega)]
      have hnew : (s.skipReports (BitVec.ofNat 16 (k + 1))).skipped 0 = s.skipped (k + 1) := by
        simp [BoardState.skipped, BoardState.status, BoardState.skipReports]
      have hone : ((s.skipReports (BitVec.ofNat 16 (k + 1))).skipReports 1).sent =
          (s.sent ++ (List.range (k + 1)).map s.skipped) ++
            [(s.skipReports (BitVec.ofNat 16 (k + 1))).skipped 0] := by
        simp only [BoardState.skipReports, hlen]
        rfl
      rw [hone, hnew, BoardState.skipReports, hlen', List.range_succ]
      simp

end Mirrors

/-! ### Power -/

/-- A board that is powered, and a device that starts and reads its pins a millisecond later. -/
theorem mirrors_plug {s : BoardState} (hpowered : s.powered = false)
    (hinfo : s.info.available = picoAvailable) (path : String) :
    Mirrors 0 [] (s.plug path) ((Device.start picoInfo 0).step (.task 1000 s.inputs)) := by
  have hplug : s.plug path =
      { s with
        path
        powered := true
        config := .defaultFor picoAvailable
        result := .ok
        resultGpio := Host.resultGpioNone
        requestId := 0
        levels := s.inputs &&& PinConfig.monitoredMask (.defaultFor picoAvailable)
        nextSeq := 0
        lastSeq := 0
        clockUs := 5000000
        overflow := false
        sent := [] } := by
    simp only [BoardState.plug, hpowered, Bool.false_eq_true, if_false, hinfo]
  have hinit := Engine.init_eq picoInfo 0
  have hsettles : (Engine.init picoInfo 0).settles 1000 = true := by
    rw [hinit]
    decide
  have hdue : (Engine.init picoInfo 0).periodicDue 1000 = false := by
    rw [hinit]
    decide
  have hsteady : Engine.Steady s.inputs ((Engine.init picoInfo 0).finishSettle s.inputs) := by
    refine ⟨by rw [Engine.finishSettle_eq], fun n hn => ?_⟩
    have hsettling : hasBit (Engine.init picoInfo 0).settling n = true := by
      rw [Engine.finishSettle_eq, hinit] at hn
      rw [hinit, Firmware.hasBit_inputMask]
      exact hn
    rw [Engine.finishSettle_eq]
    simp only [Engine.readDebounce, hsettling, if_true]
    exact ⟨rfl, rfl⟩
  have he : ((Device.start picoInfo 0).step (.task 1000 s.inputs)).engine =
      (Engine.init picoInfo 0).finishSettle s.inputs := by
    simp only [Device.step, Device.start, task_settles hsettles hsteady hdue]
  have hinv := Device.inv_run picoInfo 0 [.task 1000 s.inputs]
  have htimed := Device.timed_run picoInfo 0 [.task 1000 s.inputs]
  have hsent : ((Device.start picoInfo 0).step (.task 1000 s.inputs)).sent = [] := by
    simp [Device.sent_step, Device.committed, Device.start]
  rw [Lib.run_cons, Lib.run_nil] at hinv htimed
  rw [← he] at hsteady
  generalize (Device.start picoInfo 0).step (.task 1000 s.inputs) = d at *
  rw [Engine.finishSettle_eq, hinit] at he
  have hconfig : (PinConfig.defaultFor picoAvailable).toFirmware = d.engine.config := by
    rw [defaultFor_eq, he]
    rfl
  have hoff : ∀ n, (PinConfig.defaultFor picoAvailable n).isOutput = false := fun n => by
    rw [PinConfig.defaultFor]
    split_ifs <;> rfl
  have hlevels : ∀ n, hasBit (s.inputs &&& PinConfig.monitoredMask (.defaultFor picoAvailable)) n =
      (hasBit s.inputs n && (PinConfig.defaultFor picoAvailable n).isMonitored) := fun n => by
    rw [Firmware.hasBit_and, monitoredMask_eq, Firmware.hasBit_inputMask, ← isMonitored_iff]
  rw [hplug]
  exact
    { inv := hinv
      timed := htimed
      steady := hsteady
      reasons := by rw [he]; rfl
      events := by rw [he]; rfl
      room := by rw [he]; rfl
      info := by rw [he]; rfl
      config := hconfig
      result := by rw [he]; rfl
      resultGpio := by rw [he]; rfl
      requestId := by rw [he]; rfl
      input := fun n hn => by rw [hlevels, hn, Bool.and_true]
      output := fun n hn => absurd ((hoff n).symm.trans hn) Bool.false_ne_true
      unused := fun n hn _ => by rw [hlevels, hn, Bool.and_false]
      low := by
        rw [monitoredMask_eq]
        exact low_and_right _ (Firmware.low_inputMask _)
      overflow := rfl
      nextSeq := by rw [he]; rfl
      lastSeq := by rw [he]; rfl
      sent := by rw [hsent]; rfl }

end Hidpin.Testing
