import Hidpin.Firmware.Pin

/-! A tracked pin only sees what is meant for it: its edges, its bit of a resync and the times of the task
    calls. As long as the Sets leave its entry alone, its debouncer and its events are a function of these,
    whatever happens to the other pins. -/

namespace Hidpin.Firmware

namespace Device

/-- What reaches a pin from outside. -/
inductive PinInput where
  | edge (raw : Bool) (nowUs : U64)
  | resync (raw : Bool) (nowUs : U64)
  | task (nowUs : U64)
  deriving DecidableEq

/-- What a call brings to a pin. -/
def pinInput (n : Gpio) : Op → Option PinInput
  | .onEdge gpio raw nowUs => if gpio = n.toU8 then some (.edge raw nowUs) else none
  | .resync word nowUs => some (.resync (hasBit word n) nowUs)
  | .task nowUs _ => some (.task nowUs)
  | _ => none

/-- The configuration of an accepted Set. -/
def configSet (d : Device) : Op → Option PinConfig
  | .setPinConfig payload _ => d.engine.acceptedConfig payload
  | _ => none

/-- The operation is no Set that changes the entry of the pin. -/
def LeavesEntry (d : Device) (n : Gpio) (op : Op) : Prop :=
  ∀ next ∈ d.configSet op, next.mode n = d.engine.config.mode n ∧ next.param n = d.engine.config.param n

instance (d : Device) (n : Gpio) (op : Op) : Decidable (d.LeavesEntry n op) :=
  inferInstanceAs (Decidable (∀ next ∈ d.configSet op, _ ∧ _))

end Device

namespace Engine
open Device (PinInput)

/-- What a tracked pin makes of it. -/
def PinView.receive (n : Gpio) (v : PinView) : PinInput → PinView
  | .edge raw nowUs => v.act n (.edge raw nowUs)
  | .resync raw nowUs => if raw ≠ v.1.raw then v.act n (.edge raw nowUs) else v
  | .task nowUs => v.act n (.poll nowUs)

end Engine

namespace Device
open Engine

/-- The pin is tracked, and its entry and the board are those of `d₀`. -/
structure Unmoved (d₀ d : Device) (n : Gpio) : Prop where
  tracked : d.engine.isTracking n = true
  mode : d.engine.config.mode n = d₀.engine.config.mode n
  param : d.engine.config.param n = d₀.engine.config.param n
  info : d.engine.info = d₀.engine.info

theorem Unmoved.of_frame {d₀ d d' : Device} {n : Gpio} (h : Unmoved d₀ d n) (hf : Frame d.engine d'.engine) :
    Unmoved d₀ d' n :=
  ⟨by rw [hf.isTracking]; exact h.tracked, by rw [hf.config]; exact h.mode, by rw [hf.config]; exact h.param,
    by rw [hf.info]; exact h.info⟩

theorem Unmoved.leaves {d₀ d : Device} {n : Gpio} (h : Unmoved d₀ d n) {op : Op}
    (hop : d₀.LeavesEntry n op) : d.LeavesEntry n op := by
  intro next hnext
  rw [h.mode, h.param]
  refine hop next ?_
  cases op with
  | setPinConfig payload nowUs =>
    rw [configSet, acceptedConfig, ← h.info]
    exact hnext
  | _ => exact hnext

/-- An accepted Set that leaves its entry leaves a tracked pin tracked. -/
theorem unmoved_set {d₀ d : Device} {n : Gpio} (h : Unmoved d₀ d n) {payload : List U8} {nowUs : U64}
    (hop : d.LeavesEntry n (.setPinConfig payload nowUs)) :
    Unmoved d₀ (d.step (.setPinConfig payload nowUs)) n := by
  rcases d.engine.setPinConfig_cases payload nowUs with ⟨_, heq⟩ | ⟨next, hnext, ha⟩
  · rw [step, heq]
    exact ⟨h.tracked, h.mode, h.param, h.info⟩
  · obtain ⟨hmode, hparam⟩ := hop next hnext
    have hsame : sameEntry d.engine.config next n = true := decide_eq_true ⟨hmode.symm, hparam.symm⟩
    obtain ⟨hmon, hset, hin⟩ := (isTracking_iff _ n).mp h.tracked
    refine ⟨(isTracking_iff _ n).mpr ⟨?_, ?_, ?_⟩, ?_, ?_, ?_⟩
    · rw [step, ha.monitored]
      exact hmon
    · rw [step, ha.settling, appliedSettling, if_pos hsame]
      exact hset
    · rw [step, ha.config, hmode]
      exact hin
    · rw [step, ha.config, hmode]
      exact h.mode
    · rw [step, ha.config, hparam]
      exact h.param
    · rw [step, ha.info]
      exact h.info

theorem unmoved_step {d₀ d : Device} {n : Gpio} (h : Unmoved d₀ d n) {op : Op} (hop : d₀.LeavesEntry n op) :
    Unmoved d₀ (d.step op) n := by
  cases op with
  | onEdge gpio raw nowUs => exact h.of_frame (d.engine.frame_onEdge gpio raw nowUs)
  | resync word nowUs => exact h.of_frame (d.engine.frame_resync word nowUs)
  | task nowUs inputs =>
    have hin := ((isTracking_iff _ n).mp h.tracked).2.2
    have hpoll : ∀ e : Engine, (e.pollTask nowUs).config = e.config ∧ (e.pollTask nowUs).info = e.info :=
      fun e => by
        have hf := e.frame_pollPins nowUs
        rw [pollTask]
        split_ifs <;> exact ⟨hf.config, hf.info⟩
    rw [step, task_eq]
    refine ⟨?_, ?_, ?_, ?_⟩
    · rw [isTracking_pollTask]
      split_ifs
      · rw [isTracking_finishSettle]
        exact hin
      · exact h.tracked
    · rw [(hpoll _).1]
      split_ifs
      · rw [finishSettle_eq]
        exact h.mode
      · exact h.mode
    · rw [(hpoll _).1]
      split_ifs
      · rw [finishSettle_eq]
        exact h.param
      · exact h.param
    · rw [(hpoll _).2]
      split_ifs
      · rw [finishSettle_eq]
        exact h.info
      · exact h.info
  | setPinConfig payload nowUs => exact unmoved_set h (h.leaves hop)
  | output payload =>
    simp only [step, Engine.output]
    split <;> exact ⟨h.tracked, h.mode, h.param, h.info⟩
  | usbReset =>
    simp only [step, Engine.usbReset]
    split_ifs <;> exact ⟨h.tracked, h.mode, h.param, h.info⟩
  | getStatus nowUs => exact h
  | getDeviceInfo => exact h
  | getPinConfig => exact h
  | send nowUs accepted =>
    simp only [step, sendStatusReport_eq]
    split_ifs <;> exact ⟨h.tracked, h.mode, h.param, h.info⟩

/-- A tracked pin whose entry stays makes of an operation what it makes of its input. -/
theorem pinView_input {d : Device} (h : d.Inv) {n : Gpio} (ht : d.engine.isTracking n = true) {op : Op}
    (hop : d.LeavesEntry n op) :
    (d.step op).engine.pinView n =
      ((pinInput n op).toList.foldl (PinView.receive n) (d.engine.pinView n)) := by
  rw [pinView_act h]
  cases op with
  | onEdge gpio raw nowUs =>
    simp only [action, pinInput, ht, and_true]
    split_ifs <;> rfl
  | resync word nowUs =>
    have hraw : (d.engine.pinView n).1.raw = (d.engine.debounce n).raw := rfl
    simp only [action, pinInput, ht, true_and, Option.toList_some, List.foldl_cons, List.foldl_nil,
      PinView.receive, hraw]
    split_ifs <;> rfl
  | task nowUs inputs =>
    have hset := ((isTracking_iff _ n).mp ht).2.1
    simp only [action, hset, Bool.false_eq_true, and_false, if_false, if_pos ht]
    rfl
  | setPinConfig payload nowUs =>
    rw [action]
    rcases hc : d.engine.acceptedConfig payload with _ | next
    · rfl
    · obtain ⟨hmode, hparam⟩ := hop next hc
      have hsame : retimes d.engine.config next n = false := by
        rw [retimes, sameEntry, decide_eq_true ⟨hmode.symm, hparam.symm⟩]
        rfl
      rw [Option.bind_some, hsame]
      rfl
  | _ => rfl

/-- The debouncer and the events of a tracked pin are a function of its inputs. -/
theorem pinView_inputs {d₀ : Device} {n : Gpio} : ∀ (ops : List Op) {d : Device}, d.Inv → Unmoved d₀ d n →
    (∀ op ∈ ops, d₀.LeavesEntry n op) →
      Unmoved d₀ (Lib.run step d ops) n ∧
      (Lib.run step d ops).engine.pinView n =
        (ops.filterMap (pinInput n)).foldl (PinView.receive n) (d.engine.pinView n)
  | [], _, _, h, _ => ⟨h, rfl⟩
  | op :: ops, d, hinv, h, hops => by
    obtain ⟨hop, hops⟩ := List.forall_mem_cons.mp hops
    obtain ⟨hlast, hview⟩ := pinView_inputs ops (step_inv d op hinv) (unmoved_step h hop) hops
    refine ⟨hlast, ?_⟩
    rw [Lib.run_cons, hview, pinView_input hinv h.tracked (h.leaves hop)]
    cases hin : pinInput n op with
    | none => simp [hin]
    | some input => simp [hin]

/-- Two continuations that bring a tracked pin the same edges, resync bits and task times, and whose Sets
    leave its entry alone, confirm the same events for it, and it stays tracked in both. -/
theorem pin_isolated (info : DeviceInfo) (startUs : U64) (before : List Op) (n : Gpio) :
    let d := Lib.run step (start info startUs) before
    d.engine.isTracking n = true → ∀ ops ops' : List Op,
      (∀ op ∈ ops, d.LeavesEntry n op) → (∀ op ∈ ops', d.LeavesEntry n op) →
      ops.filterMap (pinInput n) = ops'.filterMap (pinInput n) →
        d.confirmedBy n ops = d.confirmedBy n ops' ∧
        (∀ early, early <+: ops → (Lib.run step d early).engine.isTracking n = true) ∧
        ∀ early, early <+: ops' → (Lib.run step d early).engine.isTracking n = true := by
  intro d ht ops ops' hops hops' hsame
  have hinv : d.Inv := inv_run info startUs before
  have hstart : Unmoved d d n := ⟨ht, rfl, rfl, rfl⟩
  have htracked : ∀ ops : List Op, (∀ op ∈ ops, d.LeavesEntry n op) →
      ∀ early, early <+: ops → (Lib.run step d early).engine.isTracking n = true :=
    fun ops hops early hearly =>
      (pinView_inputs early hinv hstart fun op hop => hops op (hearly.subset hop)).1.tracked
  refine ⟨?_, htracked ops hops, htracked ops' hops'⟩
  have hview := (pinView_inputs ops hinv hstart hops).2
  have hview' := (pinView_inputs ops' hinv hstart hops').2
  rw [← hsame, ← hview] at hview'
  have hevents : (Lib.run step d ops').engine.eventsOf n = (Lib.run step d ops).engine.eventsOf n :=
    congrArg Prod.snd hview'
  rw [confirmedBy, confirmedBy, hevents]

/-- A change of GPIO0 of a debounced pin, while a Set makes GPIO1 an output in the middle of the wait. -/
def isolatedRun (between : List Op) : List Op :=
  [.onEdge 0 false 2500] ++ between ++ [.task 3600 0]

def setOther : Op :=
  .setPinConfig (encodePinConfig ⟨0, 0, 1, ⟨fun n => if n.val = 0 then 2 else if n.val = 1 then 4 else 0,
    fun n => if n.val = 0 then 1 else 0⟩⟩) 2600

/-- The event is confirmed with and without it. -/
theorem pin_isolated_sample :
    (Lib.run step (start (sampleInfo 3) 0) shortRun).confirmedBy 0 (isolatedRun [setOther]) =
      (Lib.run step (start (sampleInfo 3) 0) shortRun).confirmedBy 0 (isolatedRun []) :=
  (pin_isolated (sampleInfo 3) 0 shortRun 0 (by decide +kernel) (isolatedRun [setOther]) (isolatedRun [])
    (by decide +kernel) (by decide +kernel) (by decide +kernel)).1

end Device

end Hidpin.Firmware
