import Hidpin.Firmware.Delivery

/-! What a status request answers between a Set and the end of its settle. `monitored` and `outputs`
    are published when the settle finishes, but `levels` is computed from `output_levels`, which a Set
    changes at once. -/

namespace Hidpin.Firmware
namespace Engine

/-- The parts of a status that say what the pins are. -/
def SameView (s s' : Status) : Prop :=
  s'.monitored = s.monitored ∧ s'.outputs = s.outputs ∧
    ∀ n, hasBit s.monitored n = true ∨ hasBit s.outputs n = true → hasBit s'.levels n = hasBit s.levels n

instance (s s' : Status) : Decidable (SameView s s') := inferInstanceAs (Decidable (_ ∧ _ ∧ ∀ _, _))

/-- The fields a status is computed from agree. -/
structure SameLevels (e e' : Engine) : Prop where
  monitored : e'.monitored = e.monitored
  outputs : e'.outputs = e.outputs
  outputLevels : e'.outputLevels = e.outputLevels
  confirmed : ∀ n, (e'.debounce n).confirmed = (e.debounce n).confirmed

namespace SameLevels
variable {e e' e'' : Engine}

theorem refl (e : Engine) : SameLevels e e := ⟨rfl, rfl, rfl, fun _ => rfl⟩

theorem trans (h : SameLevels e e') (h' : SameLevels e' e'') : SameLevels e e'' where
  monitored := h'.monitored.trans h.monitored
  outputs := h'.outputs.trans h.outputs
  outputLevels := h'.outputLevels.trans h.outputLevels
  confirmed n := (h'.confirmed n).trans (h.confirmed n)

theorem sameView (h : SameLevels e e') (t t' : U64) : SameView (e.getStatus t) (e'.getStatus t') := by
  refine ⟨h.monitored, h.outputs, fun n _ => ?_⟩
  simp [getStatus, h.monitored, h.outputs, h.outputLevels, h.confirmed]

end SameLevels

/-- Polling confirms a pin or leaves every confirmed level alone. -/
def Quiet (e e' : Engine) : Prop :=
  (∀ n, (e'.debounce n).WF) ∧ e.history <+: e'.history ∧ (e'.history = e.history → SameLevels e e')

theorem Quiet.observe {e₀ : Engine} (e : Engine) (n : Gpio) (r : Debounce × Option U64) (h : Quiet e₀ e)
    (_ : e.isTracking n = true) (hr : (e.debounce n).Change r) : Quiet e₀ (e.observe n r) := by
  obtain ⟨hwf, hpre, hsame⟩ := h
  have hwf' : ∀ m, ((e.observe n r).debounce m).WF := by
    intro m
    rw [debounce_observe]
    by_cases hm : m = n
    · subst hm; simpa using hr.wf
    · simpa [hm] using hwf m
  obtain ⟨d, _ | start⟩ := r
  · refine ⟨hwf', hpre, fun hh => (hsame hh).trans ⟨rfl, rfl, rfl, fun m => ?_⟩⟩
    by_cases hm : m = n
    · subst hm; simpa using hr.keep rfl
    · simp [hm]
  · refine ⟨hwf', hpre.trans (List.prefix_append _ _), fun hh => ?_⟩
    -- a confirmed event lengthens the history
    have hlen : (e.observe n (d, some start)).history.length = e.history.length + 1 := by
      simp [Engine.observe, pushEvent]
    rw [hh] at hlen
    have := hpre.length_le
    omega

theorem quiet_pollTask {e : Engine} (hwf : ∀ n, (e.debounce n).WF) (nowUs : U64) :
    Quiet e (e.pollTask nowUs) := by
  have hpoll : Quiet e (e.pollPins nowUs) :=
    pollPins_preserves (P := Quiet e) (fun _ h => h.1) Quiet.observe
      ⟨hwf, List.prefix_refl _, fun _ => SameLevels.refl e⟩ nowUs
  unfold pollTask
  split_ifs
  · exact ⟨hpoll.1, hpoll.2.1, fun hh => (hpoll.2.2 hh).trans ⟨rfl, rfl, rfl, fun _ => rfl⟩⟩
  · exact hpoll

/-- Every published output pin whose entry the Set changes already has the level the new entry gives
    it: its new initial output level, or low when it is no longer an output pin. -/
def KeepsOutputs (e : Engine) (next : PinConfig) : Prop :=
  ∀ n, hasBit e.outputs n = true → ¬(e.config.mode n = next.mode n ∧ e.config.param n = next.param n) →
    hasBit e.outputLevels n = (decide (next.mode n = modeOutput) && decide (next.param n ≠ 0))

instance (e : Engine) (next : PinConfig) : Decidable (KeepsOutputs e next) :=
  inferInstanceAs (Decidable (∀ _, _))

end Engine

namespace Device
open Engine

/-- A status request, or a task call before the settle deadline that confirms no pin. -/
def waits (x : Device × Op) : Bool :=
  match x.2 with
  | .getStatus _ => true
  | .task nowUs _ =>
    !x.1.engine.settles nowUs && decide ((x.1.step x.2).engine.history = x.1.engine.history)
  | _ => false

/-- While the settle of the Set is waited for, status requests answer as just before the Set. -/
def FrozenUntilSettle (d : Device) (payload : List U8) (nowUs : U64) : Prop :=
  ∀ ops, (∀ x ∈ Lib.steps step (d.step (.setPinConfig payload nowUs)) ops, waits x = true) → ∀ t t',
    SameView (d.engine.getStatus t)
      ((Lib.run step (d.step (.setPinConfig payload nowUs)) ops).engine.getStatus t')

/-- Waiting leaves the levels alone. -/
theorem waits_step {d₀ d : Device} (op : Op) (h : d.Inv ∧ SameLevels d₀.engine d.engine)
    (hw : waits (d, op) = true) : (d.step op).Inv ∧ SameLevels d₀.engine (d.step op).engine := by
  refine ⟨step_inv d op h.1, h.2.trans ?_⟩
  cases op with
  | getStatus nowUs => exact SameLevels.refl _
  | task nowUs inputs =>
    simp only [waits, Bool.and_eq_true, Bool.not_eq_true', decide_eq_true_eq] at hw
    obtain ⟨hs, hh⟩ := hw
    simp only [step, task_eq, hs, Bool.false_eq_true, if_false] at hh ⊢
    exact (quiet_pollTask h.1.debounce nowUs).2.2 hh
  | _ => exact absurd hw (by simp [waits])

/-- A Set keeps the view exactly when it keeps the levels of the published output pins. -/
theorem sameView_setPinConfig {d : Device} (hd : d.Inv) {payload : List U8} {next : PinConfig}
    (hnext : d.engine.acceptedConfig payload = some next) (nowUs t t' : U64) :
    SameView (d.engine.getStatus t) ((d.step (.setPinConfig payload nowUs)).engine.getStatus t') ↔
      d.engine.KeepsOutputs next := by
  rcases d.engine.setPinConfig_cases payload nowUs with ⟨hc, _⟩ | ⟨_, hc, ha⟩
  · rw [hnext] at hc; exact absurd hc (by simp)
  rw [hnext] at hc
  obtain rfl := Option.some.inj hc
  have hconf : ∀ n, ((d.engine.setPinConfig payload nowUs).debounce n).confirmed =
      (d.engine.debounce n).confirmed := by
    intro n
    rw [ha.debounce, appliedDebounce]
    split_ifs <;> simp
  -- only a published output pin can show a changed level
  have hbit : ∀ n, hasBit ((d.engine.setPinConfig payload nowUs).getStatus t').levels n =
      (hasBit d.engine.monitored n && (d.engine.debounce n).confirmed ||
        appliedLevel d.engine.config next n (hasBit d.engine.outputLevels n) &&
          hasBit d.engine.outputs n) := by
    intro n
    simp [getStatus, ha.monitored, ha.outputs, ha.outputLevels, hconf]
  have hmon : ∀ n, hasBit d.engine.outputs n = true → hasBit d.engine.monitored n = false := by
    intro n hn
    by_contra hm
    rw [hd.not_output (by simpa using hm)] at hn
    exact absurd hn (by decide)
  constructor
  · rintro ⟨_, _, hlevels⟩ n hn hdiff
    have h := hlevels n (Or.inr hn)
    rw [show (d.step (.setPinConfig payload nowUs)).engine = d.engine.setPinConfig payload nowUs
      from rfl, hbit n] at h
    have hsame : sameEntry d.engine.config next n = false := decide_eq_false hdiff
    simpa [getStatus, hn, hmon n hn, appliedLevel, hsame] using h.symm
  · intro hkeep
    refine ⟨ha.monitored, ha.outputs, fun n _ => (hbit n).trans ?_⟩
    cases hn : hasBit d.engine.outputs n with
    | false => simp [getStatus, hn]
    | true =>
      by_cases hdiff : d.engine.config.mode n = next.mode n ∧ d.engine.config.param n = next.param n
      · simp [getStatus, hn, appliedLevel, sameEntry, hdiff]
      · have hsame : sameEntry d.engine.config next n = false := decide_eq_false hdiff
        simp [getStatus, hn, hkeep n hn hdiff, appliedLevel, hsame]

/-- In every reachable state, an accepted Set leaves the answers to status requests alone until it has
    settled exactly when it keeps the levels of the published output pins. -/
theorem frozenUntilSettle_iff (info : DeviceInfo) (startUs : U64) (ops : List Op) (payload : List U8)
    (nowUs : U64) (next : PinConfig)
    (hnext : (Lib.run step (start info startUs) ops).engine.acceptedConfig payload = some next) :
    (Lib.run step (start info startUs) ops).FrozenUntilSettle payload nowUs ↔
      (Lib.run step (start info startUs) ops).engine.KeepsOutputs next := by
  have hinv := inv_run info startUs ops
  generalize Lib.run step (start info startUs) ops = d at *
  constructor
  · intro h
    exact (sameView_setPinConfig hinv hnext nowUs 0 0).mp (h [] (by simp) 0 0)
  · intro hkeep ops hw t t'
    have hset := (sameView_setPinConfig hinv hnext nowUs t t').mpr hkeep
    have hrun := (Lib.run_invariant (P := fun d' : Device => d'.Inv ∧
        SameLevels (d.step (.setPinConfig payload nowUs)).engine d'.engine)
      (A := fun d op => waits (d, op) = true) (fun _ op h hw => waits_step op h hw) ops
      ⟨step_inv d _ hinv, SameLevels.refl _⟩ hw).2
    have hview := hrun.sameView t' t'
    refine ⟨hview.1.trans hset.1, hview.2.1.trans hset.2.1, fun n hn => ?_⟩
    refine (hview.2.2 n ?_).trans (hset.2.2 n hn)
    rw [hset.1, hset.2.1]
    exact hn

/-- A configuration with pin 0 as its only pin in use. -/
def onePin (mode param : U8) : PinConfig where
  mode n := if n.val = 0 then mode else modeUnused
  param n := if n.val = 0 then param else 0

/-- Pin 0 becomes an output pin that is low, and settles. -/
def lowOutputRun : List Op :=
  [.task 1000 1, .setPinConfig (encodePinConfig ⟨0, 0, 1, onePin modeOutput 0⟩) 2000, .task 3000 1]

/-- Turning the low output pin into an input keeps the view. -/
theorem frozenUntilSettle_input :
    (Lib.run step (start (sampleInfo 1) 0) lowOutputRun).FrozenUntilSettle
      (encodePinConfig ⟨0, 0, 2, onePin modeInputPullup 20⟩) 4000 :=
  (frozenUntilSettle_iff (sampleInfo 1) 0 lowOutputRun _ 4000 (onePin modeInputPullup 20)
    (by decide +kernel)).mpr (by decide +kernel)

/-- A new initial output level shows in the status at once. -/
theorem output_level_not_frozen :
    ¬ ∀ (info : DeviceInfo) (startUs : U64) (ops : List Op) (payload : List U8) (nowUs : U64)
      (next : PinConfig),
      (Lib.run step (start info startUs) ops).engine.acceptedConfig payload = some next →
        (Lib.run step (start info startUs) ops).FrozenUntilSettle payload nowUs := by
  intro h
  have hrun := h (sampleInfo 1) 0 lowOutputRun (encodePinConfig ⟨0, 0, 2, onePin modeOutput 1⟩) 4000
    (onePin modeOutput 1) (by decide +kernel) [] (by simp) 4000 4000
  revert hrun
  decide +kernel

end Device

end Hidpin.Firmware
