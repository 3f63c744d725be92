import Hidpin.Firmware.Confirm

/-! One pin as a machine of its own. An operation of the engine does at most one thing to a pin: it settles
    it, changes its debounce time, gives it an edge or polls it. Which one depends on little of the engine,
    and what comes of it only on the debouncer of the pin. -/

namespace Hidpin.Firmware

namespace Engine

/-- What an operation does to a pin. -/
inductive PinAction where
  | settle (level : Bool) (param : U8)
  | retime (param : U8) (nowUs : U64)
  | edge (raw : Bool) (nowUs : U64)
  | poll (nowUs : U64)
  deriving DecidableEq

def PinView.act (n : Gpio) (v : PinView) : PinAction → PinView
  | .settle level param => (Debounce.reset level param, v.2)
  | .retime param nowUs => (v.1.setTime param nowUs, v.2)
  | .edge raw nowUs => v.observe n (v.1.edge raw nowUs)
  | .poll nowUs => v.observe n (v.1.poll nowUs)

/-- An operation may do nothing to a pin. -/
def PinView.actOption (n : Gpio) (v : PinView) (a : Option PinAction) : PinView := a.elim v (v.act n)

@[simp] theorem PinView.actOption_none (n : Gpio) (v : PinView) : v.actOption n none = v := rfl

@[simp] theorem PinView.actOption_some (n : Gpio) (v : PinView) (a : PinAction) :
    v.actOption n (some a) = v.act n a := rfl

/-- A Set changes the debounce time of a pin that keeps its input mode. -/
def retimes (c next : PinConfig) (n : Gpio) : Bool :=
  !sameEntry c next n && modeIsInput (next.mode n) && decide (c.mode n = next.mode n)

/-- A pin that was read is monitored, so it is tracked as long as its mode stays. -/
theorem Rep.isTracking_iff {published : PinConfig} {e : Engine} (h : Rep published e) (n : Gpio) :
    e.isTracking n = true ↔ hasBit e.settling n = false ∧ modeIsInput (e.config.mode n) = true := by
  rw [Engine.isTracking_iff]
  refine ⟨And.right, fun ⟨hset, hmode⟩ => ⟨?_, hset, hmode⟩⟩
  rw [h.monitored, hasBit_inputMask, h.kept n hmode hset]
  exact hmode

theorem poll_reset (level : Bool) (param : U8) (nowUs : U64) :
    (Debounce.reset level param).poll nowUs = (Debounce.reset level param, none) := by
  simp [Debounce.poll, Debounce.reset]

theorem pinView_pollTask (e : Engine) (nowUs : U64) (n : Gpio) :
    (e.pollTask nowUs).pinView n = (e.pollPins nowUs).pinView n := by
  rw [pollTask]
  split_ifs <;> rfl

theorem pinView_finishSettle (e : Engine) (inputs : U32) (n : Gpio) :
    (e.finishSettle inputs).pinView n =
      if hasBit e.settling n then (Debounce.reset (hasBit inputs n) (e.config.param n), e.eventsOf n)
      else e.pinView n := by
  rw [finishSettle_eq]
  simp only [pinView, eventsOf, readDebounce]
  split_ifs <;> rfl

theorem isTracking_finishSettle (e : Engine) (inputs : U32) (n : Gpio) :
    (e.finishSettle inputs).isTracking n = modeIsInput (e.config.mode n) := by
  rw [finishSettle_eq]
  simp [isTracking]

theorem isTracking_pollTask (e : Engine) (nowUs : U64) (n : Gpio) :
    (e.pollTask nowUs).isTracking n = e.isTracking n := by
  rw [← (e.frame_pollPins nowUs).isTracking n, pollTask]
  split_ifs <;> rfl

end Engine

namespace Device
open Engine

/-- What an operation does to a pin, if anything. -/
def action (d : Device) (n : Gpio) : Op → Option PinAction
  | .onEdge gpio raw nowUs =>
    if gpio = n.toU8 ∧ d.engine.isTracking n = true then some (.edge raw nowUs) else none
  | .resync raw nowUs =>
    if d.engine.isTracking n = true ∧ hasBit raw n ≠ (d.engine.debounce n).raw then
      some (.edge (hasBit raw n) nowUs)
    else none
  | .task nowUs inputs =>
    if d.engine.settles nowUs = true ∧ hasBit d.engine.settling n = true then
      some (.settle (hasBit inputs n) (d.engine.config.param n))
    else if d.engine.isTracking n = true then some (.poll nowUs)
    else none
  | .setPinConfig payload nowUs =>
    (d.engine.acceptedConfig payload).bind fun next =>
      if retimes d.engine.config next n then some (.retime (next.param n) nowUs) else none
  | _ => none

/-- Where an action comes from. -/
inductive Causes (d : Device) (n : Gpio) : Op → PinAction → Prop
  | onEdge (raw : Bool) (nowUs : U64) (ht : d.engine.isTracking n = true) :
      Causes d n (.onEdge n.toU8 raw nowUs) (.edge raw nowUs)
  | resync (word : U32) (nowUs : U64) (ht : d.engine.isTracking n = true)
      (hraw : hasBit word n ≠ (d.engine.debounce n).raw) :
      Causes d n (.resync word nowUs) (.edge (hasBit word n) nowUs)
  | settle (nowUs : U64) (inputs : U32) (hs : d.engine.settles nowUs = true)
      (hset : hasBit d.engine.settling n = true) :
      Causes d n (.task nowUs inputs) (.settle (hasBit inputs n) (d.engine.config.param n))
  | poll (nowUs : U64) (inputs : U32) (ht : d.engine.isTracking n = true) :
      Causes d n (.task nowUs inputs) (.poll nowUs)
  | retime (payload : List U8) (nowUs : U64) (next : PinConfig)
      (hnext : d.engine.acceptedConfig payload = some next) (hr : retimes d.engine.config next n = true) :
      Causes d n (.setPinConfig payload nowUs) (.retime (next.param n) nowUs)

theorem causes_of_action {d : Device} {n : Gpio} {op : Op} {a : PinAction} (h : d.action n op = some a) :
    Causes d n op a := by
  cases op with
  | onEdge gpio raw nowUs =>
    obtain ⟨⟨rfl, ht⟩, ⟨⟩⟩ := Option.ite_none_right_eq_some.mp h
    exact .onEdge raw nowUs ht
  | resync word nowUs =>
    obtain ⟨⟨ht, hraw⟩, ⟨⟩⟩ := Option.ite_none_right_eq_some.mp h
    exact .resync word nowUs ht hraw
  | task nowUs inputs =>
    simp only [action] at h
    split_ifs at h with hs ht
    · obtain rfl := Option.some.inj h
      exact .settle nowUs inputs hs.1 hs.2
    · obtain rfl := Option.some.inj h
      exact .poll nowUs inputs ht
  | setPinConfig payload nowUs =>
    obtain ⟨next, hnext, h⟩ := Option.bind_eq_some_iff.mp h
    obtain ⟨hr, ⟨⟩⟩ := Option.ite_none_right_eq_some.mp h
    exact .retime payload nowUs next hnext hr
  | _ => cases h

theorem pinView_task_act {d : Device} (h : d.Inv) (n : Gpio) (nowUs : U64) (inputs : U32) :
    (d.engine.task nowUs inputs).pinView n =
      (d.engine.pinView n).actOption n (d.action n (.task nowUs inputs)) := by
  have htrack := h.toRep.isTracking_iff n
  have hpoll : ∀ e : Engine, (e.pollPins nowUs).pinView n = if e.isTracking n = true
      then (e.pinView n).act n (.poll nowUs) else e.pinView n := fun e => e.pinView_pollPins nowUs n
  rw [task_eq, pinView_pollTask, hpoll]
  cases hs : d.engine.settles nowUs with
  | false =>
    simp only [action, hs, Bool.false_eq_true, false_and, if_false]
    split_ifs <;> rfl
  | true =>
    rw [if_pos rfl, isTracking_finishSettle, pinView_finishSettle]
    cases hset : hasBit d.engine.settling n with
    | true =>
      have hmode := h.toRep.settling n hset
      simp only [action, hs, hset, hmode, and_self, if_true, PinView.actOption_some, PinView.act,
        PinView.observe, poll_reset, Option.toList_none, List.map_nil, List.append_nil]
      rfl
    | false =>
      have hiff : d.engine.isTracking n = modeIsInput (d.engine.config.mode n) := by
        rw [Bool.eq_iff_iff, htrack, hset]
        simp
      simp only [action, hs, hset, Bool.false_eq_true, and_false, if_false, hiff]
      split_ifs <;> rfl

theorem pinView_set_act (d : Device) (n : Gpio) (payload : List U8) (nowUs : U64) :
    (d.engine.setPinConfig payload nowUs).pinView n =
      (d.engine.pinView n).actOption n (d.action n (.setPinConfig payload nowUs)) := by
  rcases d.engine.setPinConfig_cases payload nowUs with ⟨hnone, heq⟩ | ⟨next, hnext, ha⟩
  · rw [heq, action, hnone]
    rfl
  · rw [action, hnext, Option.bind_some, pinView, eventsOf, ha.debounce, ha.history, appliedDebounce]
    cases hr : retimes d.engine.config next n with
    | true => rw [if_pos (by simpa [retimes] using hr)]; rfl
    | false => rw [if_neg (by simpa [retimes] using hr)]; rfl

/-- What an operation does to a pin is its action. -/
theorem pinView_act {d : Device} (h : d.Inv) (n : Gpio) (op : Op) :
    (d.step op).engine.pinView n = (d.engine.pinView n).actOption n (d.action n op) := by
  cases op with
  | onEdge gpio raw nowUs =>
    simp only [step, action, pinView_onEdge]
    split_ifs <;> rfl
  | resync raw nowUs =>
    simp only [step, action, pinView_resync]
    split_ifs <;> rfl
  | task nowUs inputs => exact pinView_task_act h n nowUs inputs
  | setPinConfig payload nowUs => exact d.pinView_set_act n payload nowUs
  | output payload =>
    simp only [step, action, Engine.output]
    split <;> rfl
  | usbReset =>
    simp only [step, action, Engine.usbReset]
    split_ifs <;> rfl
  | getStatus nowUs => rfl
  | getDeviceInfo => rfl
  | getPinConfig => rfl
  | send nowUs accepted =>
    simp only [step, action, sendStatusReport_eq]
    split_ifs <;> rfl

/-- A pin is tracked after an operation when it was before, or when the operation settled it. -/
theorem tracked_before {d : Device} (h : d.Inv) {n : Gpio} {op : Op}
    (ht : (d.step op).engine.isTracking n = true) :
    d.engine.isTracking n = true ∨ ∃ level param, d.action n op = some (.settle level param) := by
  have hframe : Frame d.engine (d.step op).engine → d.engine.isTracking n = true := fun hf => by
    rw [← hf.isTracking]
    exact ht
  cases op with
  | onEdge gpio raw nowUs => exact Or.inl (hframe (d.engine.frame_onEdge gpio raw nowUs))
  | resync raw nowUs => exact Or.inl (hframe (d.engine.frame_resync raw nowUs))
  | task nowUs inputs =>
    rw [step, task_eq, isTracking_pollTask] at ht
    cases hs : d.engine.settles nowUs with
    | false =>
      rw [hs] at ht
      exact Or.inl ht
    | true =>
      rw [hs, if_pos rfl, isTracking_finishSettle] at ht
      cases hset : hasBit d.engine.settling n with
      | true => exact Or.inr ⟨_, _, by rw [action, if_pos ⟨hs, hset⟩]⟩
      | false => exact Or.inl ((h.toRep.isTracking_iff n).mpr ⟨hset, ht⟩)
  | setPinConfig payload nowUs =>
    refine Or.inl ((h.toRep.isTracking_iff n).mpr ?_)
    rw [step, (Inv.setPinConfig h payload nowUs).toRep.isTracking_iff] at ht
    rcases d.engine.setPinConfig_cases payload nowUs with ⟨_, heq⟩ | ⟨next, _, ha⟩
    · rwa [heq] at ht
    · rw [ha.settling, ha.config, appliedSettling] at ht
      obtain ⟨hset, hmode⟩ := ht
      split_ifs at hset with hsame
      · exact ⟨hset, by rw [(of_decide_eq_true hsame).1]; exact hmode⟩
      · rw [hmode, Bool.true_and, Bool.or_eq_false_iff, decide_eq_false_iff_not, not_not] at hset
        exact ⟨hset.2, by rw [hset.1]; exact hmode⟩
  | output payload =>
    refine Or.inl ?_
    simp only [step, Engine.output] at ht
    split at ht <;> exact ht
  | usbReset =>
    refine Or.inl ?_
    simp only [step, Engine.usbReset] at ht
    split_ifs at ht <;> exact ht
  | getStatus nowUs => exact Or.inl ht
  | getDeviceInfo => exact Or.inl ht
  | getPinConfig => exact Or.inl ht
  | send nowUs accepted =>
    refine Or.inl ?_
    simp only [step, sendStatusReport_eq] at ht
    split_ifs at ht <;> exact ht

end Device

end Hidpin.Firmware
