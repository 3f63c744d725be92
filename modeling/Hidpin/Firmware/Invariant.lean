import Hidpin.Firmware.Machine

/-! The invariant of `hp_engine_t` under any sequence of calls. Preparing and committing a report are
    calls of their own here, so a report may be committed long after it was prepared. -/

namespace Hidpin.Firmware

/-- A call of the engine: an operation, or one half of a send attempt. -/
inductive Call where
  | op (op : Op)
  | prepareReport (nowUs : U64)
  | commitReport (nowUs : U64)
  deriving DecidableEq

/-- No bit from 30 on is set. -/
def Low (mask : U32) : Prop := ∀ i, gpioCount ≤ i → mask.getLsbD i = false

theorem low_zero : Low 0 := fun _ _ => by simp

theorem low_inputMask (c : PinConfig) : Low (inputMask c) := fun _ hi => Lib.getLsbD_collect_of_le _ hi

theorem low_outputMask (c : PinConfig) : Low (outputMask c) := fun _ hi => Lib.getLsbD_collect_of_le _ hi

/-- Below 30, the bits of a mask are its pins. -/
theorem within_of_low {a b : U32} (ha : Low a) (h : ∀ n : Gpio, hasBit a n = true → hasBit b n = true) :
    Lib.Within a b := by
  intro i hi
  by_cases hlt : i < gpioCount
  · have hn := h ⟨i, hlt⟩
    rw [hasBit_eq, hasBit_eq] at hn
    exact hn hi
  · rw [ha i (by omega)] at hi
    cases hi

theorem eq_zero_of_low {a : U32} (ha : Low a) (h : ∀ n : Gpio, hasBit a n = false) : a = 0 := by
  refine BitVec.eq_of_getLsbD_eq fun i _ => ?_
  by_cases hlt : i < gpioCount
  · have hn := h ⟨i, hlt⟩
    rw [hasBit_eq] at hn
    simpa using hn
  · simpa using ha i (by omega)

namespace Engine

/-- What holds of the fields of an engine between two calls, but for the reported levels. -/
structure WellFormed (e : Engine) : Prop where
  valid : e.config.Valid e.info.available
  settling : Lib.Within e.settling (inputMask e.config)
  tracked : ∀ n, modeIsInput (e.config.mode n) = true → hasBit e.settling n = false →
    hasBit e.monitored n = true ∧ e.isTracking n = true
  disjoint : e.monitored &&& e.outputs = 0
  available : Lib.Within (e.monitored ||| e.outputs) e.info.available
  pending : ∀ n, e.isTracking n = true → (e.debounce n).WF
  settled : e.settleActive = false → e.settling = 0 ∧ e.configChanged = false ∧
    e.monitored = inputMask e.config ∧ e.outputs = outputMask e.config

/-- The fields the next reported levels come from are the same. -/
structure SameReported (e e' : Engine) : Prop where
  reportedLevels : e'.reportedLevels = e.reportedLevels
  monitored : e'.monitored = e.monitored
  staged : e'.staged = e.staged
  stagedReportedLevels : e'.stagedReportedLevels = e.stagedReportedLevels

theorem SameReported.of_frame {e e' : Engine} (h : Frame e e') : SameReported e e' :=
  ⟨h.reportedLevels, h.monitored, (congrArg Engine.staged h :), (congrArg Engine.stagedReportedLevels h :)⟩

theorem SameReported.of_applied {e e' : Engine} {next : PinConfig} {nowUs : U64}
    (h : Applied e next nowUs e') : SameReported e e' :=
  ⟨h.reportedLevels, h.monitored, (congrArg Engine.staged h.rest :),
    (congrArg Engine.stagedReportedLevels h.rest :)⟩

/-- A Set leaves the bits from 30 on alone. -/
theorem settling_setPinConfig (e : Engine) (payload : List U8) (nowUs : U64) {i : ℕ}
    (hi : gpioCount ≤ i) : (e.setPinConfig payload nowUs).settling.getLsbD i = e.settling.getLsbD i := by
  have hbit : ∀ n : Gpio, (gpioBit n).getLsbD i = false := fun n => by
    by_cases hw : i < 32
    · rw [gpioBit, Lib.getLsbD_bit hw]
      have := n.isLt
      simp only [decide_eq_false_iff_not]
      omega
    · exact BitVec.getLsbD_of_ge _ _ (by omega)
  have hloop : ∀ (e : Engine) (next : PinConfig),
      (e.applyPins next nowUs).1.settling.getLsbD i = e.settling.getLsbD i := by
    intro e next
    unfold applyPins
    generalize List.finRange gpioCount = l
    refine Lib.foldl_preserves (P := fun s : Engine × Bool => s.1.settling.getLsbD i = e.settling.getLsbD i)
      (fun s n h => Eq.trans ?_ h) l rfl
    simp only [applyPin]
    split_ifs
    · rfl
    · rfl
    · simp [hbit]
    all_goals
      rw [BitVec.getLsbD_and, BitVec.getLsbD_not, hbit]
      simpa using BitVec.lt_of_getLsbD
  have happly : ∀ (e : Engine) (next : PinConfig),
      (e.applyConfig next nowUs).settling.getLsbD i = e.settling.getLsbD i := by
    intro e next
    rw [← hloop e next]
    unfold applyConfig
    generalize e.applyPins next nowUs = s
    obtain ⟨e', changed⟩ := s
    cases changed <;> rfl
  rw [setPinConfig]
  cases (pinConfigDecodeSet payload e.info.available).config with
  | none => rfl
  | some next => exact happly _ next

/-- The masks of an engine with the configuration it published: the invariant of the representation and
    what it says about the bits that are no pin. -/
structure Masks (published : PinConfig) (e : Engine) : Prop extends Rep published e where
  published : published.Valid e.info.available
  settlingLow : Low e.settling

namespace Masks
variable {published : PinConfig} {e e' : Engine}

theorem of_rep (h : Masks published e) (hr : Rep published e') (hi : e'.info = e.info)
    (hs : e'.settling = e.settling) : Masks published e' :=
  ⟨hr, by rw [hi]; exact h.published, by rw [hs]; exact h.settlingLow⟩

theorem finishSettle (h : Masks published e) (inputs : U32) : Masks e.config (e.finishSettle inputs) := by
  have hr := h.toRep.finishSettle inputs
  rw [finishSettle_eq] at hr ⊢
  exact ⟨hr, h.valid, low_zero⟩

theorem pollTask (h : Masks published e) (nowUs : U64) : Masks published (e.pollTask nowUs) := by
  have hf := e.frame_pollPins nowUs
  refine h.of_rep (h.toRep.pollTask nowUs) ?_ ?_ <;> unfold Engine.pollTask <;> split_ifs
  · exact hf.info
  · exact hf.info
  · exact hf.settling
  · exact hf.settling

theorem setPinConfig (h : Masks published e) (payload : List U8) (nowUs : U64) :
    Masks published (e.setPinConfig payload nowUs) := by
  refine ⟨h.toRep.setPinConfig payload nowUs, ?_, fun i hi => ?_⟩
  · rcases e.setPinConfig_cases payload nowUs with ⟨_, heq⟩ | ⟨next, _, ha⟩
    · rw [heq]; exact h.published
    · rw [ha.info]; exact h.published
  · rw [e.settling_setPinConfig payload nowUs hi]
    exact h.settlingLow i hi

/-- The invariant in terms of the masks. -/
theorem wellFormed (h : Masks published e) : e.WellFormed where
  valid := h.valid
  settling := within_of_low h.settlingLow fun n hn => by
    rw [hasBit_inputMask]
    exact h.toRep.settling n hn
  tracked n hmode hn := by
    have hmon : hasBit e.monitored n = true := by
      rw [h.monitored, hasBit_inputMask, h.kept n hmode hn]
      exact hmode
    exact ⟨hmon, (e.isTracking_iff n).mpr ⟨hmon, hn, hmode⟩⟩
  disjoint := by
    refine eq_zero_of_low (fun i hi => ?_) fun n => ?_
    · rw [BitVec.getLsbD_and, h.monitored, low_inputMask _ i hi, Bool.false_and]
    · rw [hasBit_and, Bool.and_eq_false_imp]
      exact h.toRep.not_output
  available := by
    have hlow : Low (e.monitored ||| e.outputs) := fun i hi => by
      rw [BitVec.getLsbD_or, h.monitored, h.outputs, low_inputMask _ i hi, low_outputMask _ i hi]
      rfl
    refine within_of_low hlow fun n hn => ?_
    rw [h.monitored, h.outputs, hasBit_or, hasBit_inputMask, hasBit_outputMask] at hn
    by_contra hunavailable
    have hmode := (h.published n).2.1 (by simpa using hunavailable)
    rw [hmode] at hn
    exact absurd hn (by decide)
  pending n _ := h.debounce n
  settled hs := by
    obtain ⟨hnone, hchanged, hpublished⟩ := h.settled hs
    exact ⟨eq_zero_of_low h.settlingLow hnone, hchanged, by rw [h.monitored, hpublished],
      by rw [h.outputs, hpublished]⟩

end Masks

end Engine

namespace Device
open Engine

/-- A call of the engine. -/
def call (d : Device) : Call → Device
  | .op op => d.step op
  | .prepareReport nowUs => { d with engine := (d.engine.prepareReport nowUs).1 }
  | .commitReport nowUs => { d with engine := d.engine.commitReport nowUs }

/-- A call that prepares a report. -/
def prepares (x : Device × Call) : Bool :=
  match x.2 with
  | .prepareReport _ => true
  | .op (.send _ _) => true
  | _ => false

/-- A task call that finishes a settle. -/
def settlesIn (x : Device × Call) : Bool :=
  match x.2 with
  | .op (.task nowUs _) => x.1.engine.settles nowUs
  | _ => false

/-- A commit, with the calls before it, of a report prepared before a settle finished. -/
def commitsStale (p : List (Device × Call) × (Device × Call)) : Bool :=
  match p.2.2 with
  | .commitReport _ => p.2.1.engine.staged && (Lib.since prepares p.1).any settlesIn
  | _ => false

theorem masks_step {d : Device} (h : d.engine.Masks d.published) (op : Op) :
    (d.step op).engine.Masks (d.step op).published := by
  have hobs : ∀ (e : Engine) n r, e.Masks d.published → e.isTracking n = true → (e.debounce n).Change r →
      (e.observe n r).Masks d.published := fun e n r he _ hr =>
    he.of_rep (he.toRep.observe n hr) (e.frame_observe n r).info (e.frame_observe n r).settling
  cases op with
  | onEdge gpio raw nowUs => exact onEdge_preserves hobs h gpio raw nowUs
  | resync raw nowUs => exact resync_preserves hobs h raw nowUs
  | task nowUs inputs =>
    rw [step, task_eq]
    cases d.engine.settles nowUs
    · exact h.pollTask nowUs
    · exact (h.finishSettle inputs).pollTask nowUs
  | setPinConfig payload nowUs => exact h.setPinConfig payload nowUs
  | output payload =>
    refine h.of_rep (h.toRep.output payload) ?_ ?_ <;> simp only [step, Engine.output] <;> split <;> rfl
  | usbReset =>
    refine h.of_rep h.toRep.usbReset ?_ ?_ <;> simp only [step, Engine.usbReset] <;> split_ifs <;> rfl
  | send nowUs accepted =>
    simp only [step, sendStatusReport_eq]
    split
    · exact h.of_rep (h.toRep.handOver nowUs) rfl rfl
    · exact h.of_rep h.toRep.stage rfl rfl
  | getStatus nowUs => exact h
  | getDeviceInfo => exact h
  | getPinConfig => exact h

theorem masks_call {d : Device} (h : d.engine.Masks d.published) (c : Call) :
    (d.call c).engine.Masks (d.call c).published := by
  cases c with
  | op op => exact masks_step h op
  | prepareReport nowUs =>
    rw [call, prepareReport_eq]
    exact h.of_rep h.toRep.stage rfl rfl
  | commitReport nowUs =>
    simp only [call, commitReport]
    split
    · exact h
    · have hq := EventQueue.wf_drop h.queue d.engine.stagedEvents
      refine h.of_rep ⟨?_, h.debounce, h.valid, h.monitored, h.outputs, h.settling, h.kept, h.settled⟩
        rfl rfl
      split_ifs
      · exact ⟨hq.head_lt, hq.count_le⟩
      · exact hq

/-- The reported levels are monitored, and so are those of a report prepared since the last settle. -/
def LevelsMonitored (tr : List (Device × Call)) (e : Engine) : Prop :=
  Lib.Within e.reportedLevels e.monitored ∧
    (e.staged = true → (Lib.since prepares tr).any settlesIn = false →
      Lib.Within e.stagedReportedLevels e.monitored)

theorem LevelsMonitored.of_same {tr : List (Device × Call)} {e e' : Engine} {x : Device × Call}
    (h : LevelsMonitored tr e) (hs : SameReported e e') (hx : prepares x = false) :
    LevelsMonitored (tr ++ [x]) e' := by
  refine ⟨by rw [hs.reportedLevels, hs.monitored]; exact h.1, fun hstaged hsince => ?_⟩
  rw [Lib.since_concat, hx, if_neg (by decide), List.any_append, Bool.or_eq_false_iff] at hsince
  rw [hs.stagedReportedLevels, hs.monitored]
  exact h.2 (hs.staged ▸ hstaged) hsince.1

theorem LevelsMonitored.of_stage {tr : List (Device × Call)} {e : Engine} {x : Device × Call}
    (h : LevelsMonitored tr e) : LevelsMonitored (tr ++ [x]) e.stage := by
  refine ⟨h.1, fun hstaged _ => ?_⟩
  have hready : e.reportReady = true := hstaged
  simp only [stage, hready, if_true, reflected]
  exact Lib.within_and_right _ _

theorem sameReported_pollTask (e : Engine) (nowUs : U64) : SameReported e (e.pollTask nowUs) := by
  have h : SameReported e (e.pollPins nowUs) := .of_frame (e.frame_pollPins nowUs)
  unfold pollTask
  split
  · exact ⟨h.reportedLevels, h.monitored, h.staged, h.stagedReportedLevels⟩
  · exact h

theorem sameReported_step (d : Device) {op : Op} (hsend : ∀ nowUs accepted, op ≠ .send nowUs accepted)
    (hsettle : settlesIn (d, .op op) = false) : SameReported d.engine (d.step op).engine := by
  cases op with
  | onEdge gpio raw nowUs => exact .of_frame (d.engine.frame_onEdge gpio raw nowUs)
  | resync raw nowUs => exact .of_frame (d.engine.frame_resync raw nowUs)
  | task nowUs inputs =>
    have hnot : d.engine.settles nowUs = false := hsettle
    rw [step, task_eq, hnot]
    exact sameReported_pollTask d.engine nowUs
  | setPinConfig payload nowUs =>
    rcases d.engine.setPinConfig_cases payload nowUs with ⟨_, heq⟩ | ⟨next, _, ha⟩
    · rw [step, heq]
      exact ⟨rfl, rfl, rfl, rfl⟩
    · exact .of_applied ha
  | output payload => simp only [step, Engine.output]; split <;> exact ⟨rfl, rfl, rfl, rfl⟩
  | usbReset => simp only [step, Engine.usbReset]; split <;> exact ⟨rfl, rfl, rfl, rfl⟩
  | send nowUs accepted => exact absurd rfl (hsend nowUs accepted)
  | _ => exact ⟨rfl, rfl, rfl, rfl⟩

theorem levelsMonitored_call {d : Device} {tr : List (Device × Call)} (c : Call)
    (hstale : commitsStale (tr, (d, c)) = false) (h : LevelsMonitored tr d.engine) :
    LevelsMonitored (tr ++ [(d, c)]) (d.call c).engine := by
  cases c with
  | prepareReport nowUs =>
    rw [call, prepareReport_eq]
    exact h.of_stage
  | commitReport nowUs =>
    rw [call, commitReport]
    cases hstaged : d.engine.staged with
    | false => exact h.of_same ⟨rfl, rfl, rfl, rfl⟩ rfl
    | true =>
      rw [commitsStale, hstaged, Bool.true_and] at hstale
      exact ⟨h.2 hstaged hstale, fun hc => by cases hc⟩
  | op op =>
    by_cases hsend : ∀ nowUs accepted, op ≠ .send nowUs accepted
    · cases hsettle : settlesIn (d, .op op) with
      | false =>
        exact h.of_same (sameReported_step d hsend hsettle) (by cases op <;> first | rfl | simp at hsend)
      | true =>
        cases op with
        | task nowUs inputs =>
          have hsettles : d.engine.settles nowUs = true := hsettle
          have hsame := sameReported_pollTask (d.engine.finishSettle inputs) nowUs
          rw [call, step, task_eq, hsettles]
          refine ⟨?_, fun _ hsince => ?_⟩
          · rw [if_pos rfl, hsame.reportedLevels, hsame.monitored, finishSettle_eq]
            exact Lib.within_and_right _ _
          · rw [Lib.since_concat, show prepares (d, Call.op (.task nowUs inputs)) = false from rfl,
              if_neg (by decide), List.any_append, List.any_cons, hsettle] at hsince
            simp at hsince
        | _ => cases hsettle
    · simp only [not_forall, not_not] at hsend
      obtain ⟨nowUs, accepted, rfl⟩ := hsend
      simp only [call, step, sendStatusReport_eq]
      split
      · exact ⟨Lib.within_and_right _ _, fun hc => by cases hc⟩
      · exact h.of_stage

/-- In every state that calls of the engine lead to, its fields fit together; and the reported levels are
    monitored unless a report was committed that had been prepared before a settle finished. -/
theorem wellFormed_run (info : DeviceInfo) (nowUs : U64) (calls : List Call) :
    (Lib.run call (start info nowUs) calls).engine.WellFormed ∧
    ((Lib.withPast (Lib.steps call (start info nowUs) calls)).any commitsStale = false →
      Lib.Within (Lib.run call (start info nowUs) calls).engine.reportedLevels
        (Lib.run call (start info nowUs) calls).engine.monitored) := by
  constructor
  · have hstart : (start info nowUs).engine.Masks (start info nowUs).published := by
      refine ⟨(Engine.inv_init info nowUs).toRep, fun n => ?_, ?_⟩
      · exact ⟨(by decide : (0 : U8) ≤ modeOutput), fun _ => rfl, fun _ => rfl, fun h => by cases h⟩
      · rw [start, init_eq]
        exact low_inputMask _
    exact (Lib.run_preserves (P := fun d : Device => d.engine.Masks d.published)
      (fun d c h => masks_call h c) calls hstart).wellFormed
  · intro hfresh
    suffices h : LevelsMonitored (Lib.steps call (start info nowUs) calls)
        (Lib.run call (start info nowUs) calls).engine from h.1
    induction calls using List.reverseRecOn with
    | nil =>
      rw [Lib.run_nil, start, init_eq]
      exact ⟨fun i hi => by simp [blank] at hi, fun hc => by cases hc⟩
    | append_singleton calls c ih =>
      rw [Lib.steps_concat, Lib.withPast_concat, List.any_append, Bool.or_eq_false_iff] at hfresh
      rw [Lib.run_append, Lib.run_cons, Lib.run_nil, Lib.steps_concat]
      exact levelsMonitored_call c (by simpa using hfresh.2) (ih hfresh.1)

/-- A board with GPIO0, an input that reads high; the periodic report is prepared, a Set turns the pin
    off, and `between` are the calls before the commit. -/
def commitCalls (between : List Call) : List Call :=
  [.op (.task 1000 1), .op (.task 1000000 1), .prepareReport 1000000,
    .op (.setPinConfig ([0, 0, 1] ++ List.replicate 60 0) 1000100)] ++ between ++ [.commitReport 1002000]

/-- Committed before the settle, the report leaves the reported levels monitored. -/
theorem wellFormed_run_fresh : Lib.Within
    (Lib.run call (start (sampleInfo 1) 0) (commitCalls [])).engine.reportedLevels
    (Lib.run call (start (sampleInfo 1) 0) (commitCalls [])).engine.monitored :=
  (wellFormed_run (sampleInfo 1) 0 (commitCalls [])).2 (by decide +kernel)

/-- Committed after the settle, the report brings back the level of a pin that is not monitored. -/
theorem levels_not_monitored : ¬ Lib.Within
    (Lib.run call (start (sampleInfo 1) 0) (commitCalls [.op (.task 1001100 1)])).engine.reportedLevels
    (Lib.run call (start (sampleInfo 1) 0) (commitCalls [.op (.task 1001100 1)])).engine.monitored := by
  intro h
  exact absurd (h 0 (by decide +kernel)) (by decide +kernel)

end Device

end Hidpin.Firmware
