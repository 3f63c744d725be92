import Hidpin.Firmware.Machine

/-! Which changes are confirmed. What an operation means for one pin is an edge of it, a poll of its
    debouncer or nothing; a change that waits is confirmed by the first poll after its debounce time,
    and by nothing else. -/

namespace Hidpin.Firmware

namespace Engine

/-- The events of a pin that were confirmed, oldest first. -/
def eventsOf (e : Engine) (n : Gpio) : List EdgeEvent := (e.history.map Confirmed.event).filter (·.gpio = n)

/-- What concerns one pin: its debouncer and its events. -/
abbrev PinView := Debounce × List EdgeEvent

def pinView (e : Engine) (n : Gpio) : PinView := (e.debounce n, e.eventsOf n)

/-- One observation of the pin. -/
def PinView.observe (n : Gpio) (v : PinView) (r : Debounce × Option U64) : PinView :=
  (r.1, v.2 ++ r.2.toList.map fun startUs => ⟨n, r.1.confirmed, startUs⟩)

theorem pinView_observe (e : Engine) (n m : Gpio) (r : Debounce × Option U64) :
    (e.observe n r).pinView m = if m = n then (e.pinView n).observe n r else e.pinView m := by
  rcases r with ⟨d, _ | start⟩
  · by_cases hm : m = n
    · subst hm; simp [observe, pinView, PinView.observe, eventsOf]
    · simp [observe, pinView, eventsOf, hm]
  · by_cases hm : m = n
    · subst hm; simp [observe, pinView, PinView.observe, eventsOf, pushEvent]
    · have hnm : ¬ n = m := fun h => hm h.symm
      simp [observe, pinView, eventsOf, pushEvent, hm, hnm]

theorem pinView_onEdge (e : Engine) (gpio : U8) (raw : Bool) (now : U64) (n : Gpio) :
    (e.onEdge gpio raw now).pinView n = if gpio = n.toU8 ∧ e.isTracking n = true
      then (e.pinView n).observe n ((e.debounce n).edge raw now) else e.pinView n := by
  by_cases hg : gpio = n.toU8
  · subst hg
    rw [onEdge_toU8]
    by_cases ht : e.isTracking n = true
    · simp [ht, edgeAt_eq_observe, pinView_observe]
    · simp [ht]
  · rw [if_neg fun h => hg h.1, onEdge]
    split_ifs with hlt ht
    · have hn : n ≠ ⟨gpio.toNat, hlt⟩ := by
        rintro rfl
        exact hg (BitVec.eq_of_toNat_eq (by rw [Gpio.toU8, BitVec.toNat_ofNat, Nat.mod_eq_of_lt gpio.isLt]))
      rw [edgeAt_eq_observe, pinView_observe, if_neg hn]
    · rfl
    · rfl

theorem pinView_resync (e : Engine) (raw : U32) (now : U64) (n : Gpio) :
    (e.resync raw now).pinView n = if e.isTracking n = true ∧ hasBit raw n ≠ (e.debounce n).raw
      then (e.pinView n).observe n ((e.debounce n).edge (hasBit raw n) now) else e.pinView n := by
  refine Lib.foldl_component (v := fun (e : Engine) n => e.pinView n) (I := Frame e)
    (g := fun n v => if e.isTracking n = true ∧ hasBit raw n ≠ v.1.raw
      then v.observe n (v.1.edge (hasBit raw n) now) else v)
    (fun e' n h => ?_) (fun e' n h => ?_) (fun e' n m _ hm => ?_) (Frame.refl e) n
  · unfold resyncPin
    split_ifs
    · exact h.trans (e'.frame_onEdge _ _ _)
    · exact h
  · simp only [resyncPin, rawBit_eq, h.isTracking]
    by_cases ht : e.isTracking n = true
    · by_cases hr : hasBit raw n = (e'.debounce n).raw
      · simp [ht, hr, pinView]
      · have hview := pinView_onEdge e' (Gpio.toU8 n) (hasBit raw n) now n
        rw [if_pos ⟨rfl, by rw [h.isTracking]; exact ht⟩] at hview
        have hfst : (e'.pinView n).1 = e'.debounce n := rfl
        simpa [ht, hr, hfst] using hview
    · simp [ht]
  · simp only [resyncPin]
    split_ifs
    · rw [pinView_onEdge, if_neg fun h => hm (toU8_injective h.1).symm]
    · rfl

theorem pinView_pollPins (e : Engine) (now : U64) (n : Gpio) :
    (e.pollPins now).pinView n = if e.isTracking n = true
      then (e.pinView n).observe n ((e.debounce n).poll now) else e.pinView n := by
  refine Lib.foldl_component (v := fun (e : Engine) n => e.pinView n) (I := Frame e)
    (g := fun n v => if e.isTracking n = true then v.observe n (v.1.poll now) else v)
    (fun e' n h => h.trans (e'.frame_pollPin now n)) (fun e' n h => ?_) (fun e' n m _ hm => ?_)
      (Frame.refl e) n
  · rw [pollPin_eq_observe, h.isTracking]
    split_ifs
    · rw [pinView_observe, if_pos rfl]
      rfl
    · rfl
  · rw [pollPin_eq_observe]
    split_ifs
    · rw [pinView_observe, if_neg hm]
    · rfl

end Engine

namespace Device
open Engine

/-- The edge of a pin that an operation delivers: the level and the time. -/
def edgeOf (d : Device) (n : Gpio) : Op → Option (Bool × U64)
  | .onEdge gpio raw nowUs => if gpio = n.toU8 then some (raw, nowUs) else none
  | .resync raw nowUs =>
    if hasBit raw n ≠ (d.engine.debounce n).raw then some (hasBit raw n, nowUs) else none
  | _ => none

/-- The observation of a tracked pin that an operation makes. -/
def observation (d : Device) (n : Gpio) (op : Op) : Option (Debounce × Option U64) :=
  match op, d.edgeOf n op with
  | _, some (raw, nowUs) => some ((d.engine.debounce n).edge raw nowUs)
  | .task nowUs _, none => some ((d.engine.debounce n).poll nowUs)
  | _, none => none

/-- A pin is tracked, and these are its settings. -/
def TrackedAs (d : Device) (n : Gpio) (mode param : U8) : Prop :=
  d.engine.isTracking n = true ∧ d.engine.config.mode n = mode ∧ d.engine.config.param n = param

/-- A pin stays tracked, with the same settings, in every state of a run. -/
def StaysTracked (d : Device) (n : Gpio) (ops : List Op) : Prop :=
  ∀ before, before <+: ops →
    (Lib.run step d before).TrackedAs n (d.engine.config.mode n) (d.engine.config.param n)

theorem StaysTracked.now {d : Device} {n : Gpio} {ops : List Op} (h : d.StaysTracked n ops) :
    d.engine.isTracking n = true := (h [] List.nil_prefix).1

theorem StaysTracked.first {d : Device} {n : Gpio} (op : Op) (ops : List Op)
    (h : d.StaysTracked n (op :: ops)) : d.StaysTracked n [op] :=
  fun before hbefore => h before (hbefore.trans (by simp))

theorem StaysTracked.tail {d : Device} {n : Gpio} {op : Op} {ops : List Op}
    (h : d.StaysTracked n (op :: ops)) : (d.step op).StaysTracked n ops := by
  intro before hbefore
  obtain ⟨_, hmode, hparam⟩ := h [op] (by simp)
  obtain ⟨htracked, hmode', hparam'⟩ := h (op :: before) (List.prefix_cons_inj op |>.mpr hbefore)
  exact ⟨htracked, hmode'.trans hmode.symm, hparam'.trans hparam.symm⟩

theorem StaysTracked.left {d : Device} {n : Gpio} {ops ops' : List Op} (h : d.StaysTracked n (ops ++ ops')) :
    d.StaysTracked n ops := fun before hbefore => h before (hbefore.trans (List.prefix_append _ _))

theorem StaysTracked.right {n : Gpio} : ∀ {ops ops' : List Op} {d : Device}, d.StaysTracked n (ops ++ ops') →
    (Lib.run step d ops).StaysTracked n ops'
  | [], _, _, h => h
  | _ :: ops, ops', _, h => @StaysTracked.right n ops ops' _ h.tail

/-- What an operation means for a pin that stays tracked. -/
theorem pinView_step {d : Device} {n : Gpio} (op : Op) (h : d.StaysTracked n [op]) :
    (d.step op).engine.pinView n = match d.observation n op with
      | some r => (d.engine.pinView n).observe n r
      | none => d.engine.pinView n := by
  have ht := h.now
  cases op with
  | onEdge gpio raw nowUs =>
    simp only [step, observation, edgeOf, pinView_onEdge, ht, and_true]
    split_ifs <;> rfl
  | resync raw nowUs =>
    simp only [step, observation, edgeOf, pinView_resync, ht, true_and]
    split_ifs <;> rfl
  | task nowUs inputs =>
    have hset := ((isTracking_iff _ n).mp ht).2.1
    have hmode := ((isTracking_iff _ n).mp ht).2.2
    have hview : (if d.engine.settles nowUs then d.engine.finishSettle inputs else d.engine).pinView n =
        d.engine.pinView n := by
      split_ifs
      · rw [finishSettle_eq]
        simp [pinView, eventsOf, readDebounce, hset]
      · rfl
    have htrack : (if d.engine.settles nowUs then d.engine.finishSettle inputs else d.engine).isTracking n =
        true := by
      split_ifs
      · rw [finishSettle_eq, isTracking_iff]
        simp [hmode]
      · exact ht
    have hpoll : ∀ e : Engine, (e.pollTask nowUs).pinView n = (e.pollPins nowUs).pinView n := fun e => by
      rw [pollTask]
      split_ifs <;> rfl
    simp only [step, observation, edgeOf, task_eq, hpoll, pinView_pollPins, htrack, if_true, hview]
    rw [show (if d.engine.settles nowUs then d.engine.finishSettle inputs else d.engine).debounce n =
      d.engine.debounce n from congrArg Prod.fst hview]
  | setPinConfig payload nowUs =>
    simp only [observation, edgeOf]
    obtain ⟨_, hmode, hparam⟩ := h [.setPinConfig payload nowUs] (List.prefix_refl _)
    simp only [Lib.run_cons, Lib.run_nil, step] at hmode hparam ⊢
    rcases d.engine.setPinConfig_cases payload nowUs with ⟨_, heq⟩ | ⟨next, _, happ⟩
    · rw [heq]; rfl
    · rw [happ.config] at hmode hparam
      have hsame : sameEntry d.engine.config next n = true := decide_eq_true ⟨hmode.symm, hparam.symm⟩
      rw [pinView, pinView, eventsOf, eventsOf, happ.debounce, happ.history, appliedDebounce, hsame]
      rfl
  | output payload =>
    simp only [step, observation, edgeOf, Engine.output]
    split <;> rfl
  | usbReset =>
    simp only [step, observation, edgeOf, Engine.usbReset]
    split_ifs <;> rfl
  | getStatus nowUs => rfl
  | getDeviceInfo => rfl
  | getPinConfig => rfl
  | send nowUs accepted =>
    simp only [step, observation, edgeOf, sendStatusReport_eq]
    split_ifs <;> rfl

/-- A task call polls the debouncer. -/
theorem pinView_task {d : Device} {n : Gpio} {nowUs : U64} {inputs : U32}
    (h : d.StaysTracked n [.task nowUs inputs]) : (d.step (.task nowUs inputs)).engine.pinView n =
      (d.engine.pinView n).observe n ((d.engine.debounce n).poll nowUs) := pinView_step _ h

/-! ### The debounce time of a pin -/

/-- The debounce time in µs that a `param` asks for. -/
def debounceTime (param : U8) : U32 := param.setWidth 32 * 1000

/-- Every pin that was read has the debounce time of its configuration. -/
def Timed (e : Engine) : Prop := ∀ n, modeIsInput (e.config.mode n) = true → hasBit e.settling n = false →
  (e.debounce n).debounceUs = debounceTime (e.config.param n)

theorem Timed.of_frame {e e' : Engine} (h : Timed e) (hf : Frame e e')
    (hd : ∀ n, (e'.debounce n).debounceUs = (e.debounce n).debounceUs) : Timed e' := by
  intro n hmode hset
  rw [hf.config] at hmode ⊢
  rw [hf.settling] at hset
  rw [hd, h n hmode hset]

theorem debounceUs_edge (d : Debounce) (raw : Bool) (now : U64) :
    (d.edge raw now).1.debounceUs = d.debounceUs := by
  simp only [Debounce.edge]; split_ifs <;> rfl

theorem debounceUs_poll (d : Debounce) (now : U64) : (d.poll now).1.debounceUs = d.debounceUs := by
  simp only [Debounce.poll]; split_ifs <;> rfl

theorem timed_pollTask {e : Engine} (h : Timed e) (nowUs : U64) : Timed (e.pollTask nowUs) := by
  have hpoll : Timed (e.pollPins nowUs) := by
    refine h.of_frame (e.frame_pollPins nowUs) fun n => ?_
    have hview := congrArg Prod.fst (e.pinView_pollPins nowUs n)
    rw [show (e.pollPins nowUs).debounce n = _ from hview]
    split_ifs
    · exact debounceUs_poll _ _
    · rfl
  rw [pollTask]
  split_ifs <;> exact hpoll

theorem timed_step (d : Device) (op : Op) (h : Timed d.engine) : Timed (d.step op).engine := by
  cases op with
  | onEdge gpio raw nowUs =>
    refine h.of_frame (d.engine.frame_onEdge gpio raw nowUs) fun n => ?_
    have hview := congrArg Prod.fst (d.engine.pinView_onEdge gpio raw nowUs n)
    rw [show (d.step (.onEdge gpio raw nowUs)).engine.debounce n = _ from hview]
    split_ifs
    · exact debounceUs_edge _ _ _
    · rfl
  | resync raw nowUs =>
    refine h.of_frame (d.engine.frame_resync raw nowUs) fun n => ?_
    have hview := congrArg Prod.fst (d.engine.pinView_resync raw nowUs n)
    rw [show (d.step (.resync raw nowUs)).engine.debounce n = _ from hview]
    split_ifs
    · exact debounceUs_edge _ _ _
    · rfl
  | task nowUs inputs =>
    simp only [step, task_eq]
    refine timed_pollTask ?_ nowUs
    split_ifs
    · rw [finishSettle_eq]
      intro n hmode _
      simp only [readDebounce]
      split_ifs with hset
      · rfl
      · exact h n hmode (by simpa using hset)
    · exact h
  | setPinConfig payload nowUs =>
    simp only [step]
    rcases d.engine.setPinConfig_cases payload nowUs with ⟨_, heq⟩ | ⟨next, _, happ⟩
    · rw [heq]; exact h
    · intro n hmode hset
      rw [happ.config] at hmode ⊢
      rw [happ.settling, appliedSettling] at hset
      rw [happ.debounce, appliedDebounce]
      split_ifs at hset with hsame
      · obtain ⟨hm, hp⟩ := of_decide_eq_true hsame
        rw [hsame, ← hp]
        exact h n (by rw [hm]; exact hmode) hset
      · rw [hmode, Bool.true_and, Bool.or_eq_false_iff, decide_eq_false_iff_not, not_not] at hset
        rw [Bool.not_eq_true] at hsame
        simp only [hsame, hmode, hset.1, Bool.not_false, Bool.and_self, decide_true, if_true,
          Debounce.setTime]
        split <;> rfl
  | output payload =>
    simp only [step, Engine.output]
    split <;> exact h
  | usbReset =>
    simp only [step, Engine.usbReset]
    split_ifs <;> exact h
  | getStatus nowUs => exact h
  | getDeviceInfo => exact h
  | getPinConfig => exact h
  | send nowUs accepted =>
    simp only [step, sendStatusReport_eq]
    split_ifs <;> exact h

theorem timed_run (info : DeviceInfo) (startUs : U64) (ops : List Op) :
    Timed (Lib.run step (start info startUs) ops).engine := by
  refine Lib.run_preserves (P := fun d : Device => Timed d.engine) timed_step ops fun n hmode hset => ?_
  rw [start, init_eq] at hmode hset
  rw [hasBit_inputMask] at hset
  exact absurd (hset.symm.trans hmode) (by decide)

/-! ### A change that waits -/

/-- What a change of a pin to `raw` at `t` leaves behind while it waits; nothing is confirmed yet. -/
structure Waits (d : Debounce) (raw : Bool) (t : U64) (param : U8) : Prop where
  pending : d.pending = true
  raw : d.raw = raw
  since : d.lastChangeUs = t
  time : d.debounceUs = debounceTime param

theorem toNat_debounceTime (param : U8) : (debounceTime param).toNat = 1000 * param.toNat := by
  have h := param.isLt
  rw [debounceTime, BitVec.toNat_mul, BitVec.toNat_setWidth, show (1000 : U32).toNat = 1000 from rfl]
  omega

/-- The poll that confirms a waiting change is the first one after its debounce time. -/
theorem Waits.poll {d : Debounce} {raw : Bool} {t : U64} {param : U8} (h : Waits d raw t param)
    (nowUs : U64) : d.poll nowUs =
      if t.toNat + 1000 * param.toNat ≤ nowUs.toNat
      then ({ d with confirmed := raw, pending := false }, some t) else (d, none) := by
  have htime : (d.debounceUs.setWidth 64).toNat = 1000 * param.toNat := by
    have hlt := param.isLt
    rw [h.time, BitVec.toNat_setWidth, toNat_debounceTime, Nat.mod_eq_of_lt (by omega)]
  simp only [Debounce.poll, h.pending, h.raw, h.since, BitVec.lt_def, htime, Bool.true_eq_false, false_or]
  by_cases hearly : nowUs.toNat < t.toNat
  · rw [if_pos hearly, if_neg (by omega)]
  · have hsub : (nowUs - t).toNat = nowUs.toNat - t.toNat :=
      BitVec.toNat_sub_of_le (BitVec.le_def.mpr (Nat.le_of_not_lt hearly))
    rw [if_neg hearly, hsub]
    by_cases hlate : t.toNat + 1000 * param.toNat ≤ nowUs.toNat
    · rw [if_neg (by omega), if_pos hlate]
    · rw [if_pos (by omega), if_neg hlate]

/-- Whether an operation polls the debouncers when a change from `t` is due. -/
def pollsDue (t : U64) (param : U8) : Op → Bool
  | .task nowUs _ => decide (t.toNat + 1000 * param.toNat ≤ nowUs.toNat)
  | _ => false

/-- An operation without an edge of the pin polls it or leaves it alone. -/
theorem observation_of_quiet {d : Device} {n : Gpio} {op : Op} (h : d.edgeOf n op = none) :
    d.observation n op = match op with
      | .task nowUs _ => some ((d.engine.debounce n).poll nowUs)
      | _ => none := by
  cases op <;> simp only [observation, h]

/-- A run without an edge of the pin in which no poll comes when the change is due. -/
theorem waits_run {n : Gpio} {raw : Bool} {t : U64} {param : U8} : ∀ (ops : List Op) {d : Device},
    d.StaysTracked n ops → Waits (d.engine.debounce n) raw t param →
    (∀ x ∈ Lib.steps step d ops, x.1.edgeOf n x.2 = none) → (∀ op ∈ ops, pollsDue t param op = false) →
      (Lib.run step d ops).engine.pinView n = d.engine.pinView n
  | [], _, _, _, _, _ => rfl
  | op :: ops, d, hstays, hwaits, hquiet, hearly => by
    obtain ⟨hop, hearly⟩ := List.forall_mem_cons.mp hearly
    obtain ⟨hnone, hquiet⟩ := List.forall_mem_cons.mp hquiet
    have hview : (d.step op).engine.pinView n = d.engine.pinView n := by
      rw [pinView_step op (hstays.first op ops), observation_of_quiet hnone]
      cases op with
      | task nowUs inputs =>
        have hnot : ¬ t.toNat + 1000 * param.toNat ≤ nowUs.toNat := of_decide_eq_false hop
        simp only [hwaits.poll nowUs, if_neg hnot, PinView.observe]
        simp [pinView]
      | _ => rfl
    have hdeb : (d.step op).engine.debounce n = d.engine.debounce n := congrArg Prod.fst hview
    rw [Lib.run_cons, waits_run ops hstays.tail (by rw [hdeb]; exact hwaits) hquiet hearly, hview]

/-- Nothing that began at `t` waits. -/
def NoneSince (d : Debounce) (t : U64) : Prop := d.pending = true → d.lastChangeUs ≠ t

theorem noneSince_edge (d : Debounce) (raw : Bool) {t nowUs : U64} (h : nowUs ≠ t) :
    NoneSince (d.edge raw nowUs).1 t ∧ ∀ startUs ∈ (d.edge raw nowUs).2, startUs ≠ t := by
  simp only [Debounce.edge, NoneSince]
  split_ifs
  · simp
  · simpa using h
  · simpa using h

theorem noneSince_poll {d : Debounce} {t : U64} (h : NoneSince d t) (nowUs : U64) :
    NoneSince (d.poll nowUs).1 t ∧ ∀ startUs ∈ (d.poll nowUs).2, startUs ≠ t := by
  simp only [Debounce.poll]
  split_ifs with hidle
  · exact ⟨h, by simp⟩
  · exact ⟨h, by simp⟩
  · have hpending : d.pending = true := by
      by_contra hc
      exact hidle (Or.inl (by simpa using hc))
    exact ⟨by simp [NoneSince], by simpa using h hpending⟩

theorem noneSince_observation {d : Device} {n : Gpio} {op : Op} {t : U64}
    (h : NoneSince (d.engine.debounce n) t ∨ (d.edgeOf n op).isSome = true)
    (hedge : ∀ y ∈ d.edgeOf n op, y.2 ≠ t) {r : Debounce × Option U64} (hr : d.observation n op = some r) :
    NoneSince r.1 t ∧ ∀ startUs ∈ r.2, startUs ≠ t := by
  cases he : d.edgeOf n op with
  | some y =>
    have heq : r = (d.engine.debounce n).edge y.1 y.2 := by
      cases op <;> simp only [observation, he, Option.some.injEq] at hr <;> exact hr.symm
    rw [heq]
    exact noneSince_edge _ _ (hedge y (by rw [he]; rfl))
  | none =>
    rw [observation_of_quiet he] at hr
    have hsince : NoneSince (d.engine.debounce n) t := h.resolve_right (by rw [he]; decide)
    cases op with
    | task nowUs inputs =>
      rw [← Option.some.inj hr]
      exact noneSince_poll hsince nowUs
    | _ => exact absurd hr (by simp)

/-- Without an edge at `t`, a run confirms nothing that began at `t`, unless that waits and the pin has
    no edge first. -/
theorem others_run {n : Gpio} {t : U64} : ∀ (ops : List Op) {d : Device}, d.StaysTracked n ops →
    (NoneSince (d.engine.debounce n) t ∨ ∀ op ∈ ops.head?, (d.edgeOf n op).isSome = true) →
    (∀ x ∈ Lib.steps step d ops, ∀ y ∈ x.1.edgeOf n x.2, y.2 ≠ t) →
      ∃ new, (Lib.run step d ops).engine.eventsOf n = d.engine.eventsOf n ++ new ∧ ∀ ev ∈ new, ev.startUs ≠ t
  | [], _, _, _, _ => ⟨[], by simp, by simp⟩
  | op :: ops, d, hstays, hnone, hedges => by
    obtain ⟨hedge, hedges⟩ := List.forall_mem_cons.mp hedges
    have hnone : NoneSince (d.engine.debounce n) t ∨ (d.edgeOf n op).isSome = true :=
      hnone.imp_right fun h => h op rfl
    have hview := pinView_step op (hstays.first op ops)
    cases hobs : d.observation n op with
    | none =>
      rw [hobs] at hview
      have hdeb : (d.step op).engine.debounce n = d.engine.debounce n := congrArg Prod.fst hview
      have hsince : NoneSince (d.engine.debounce n) t := hnone.resolve_right fun hsome => by
        obtain ⟨y, hy⟩ := Option.isSome_iff_exists.mp hsome
        cases op <;> simp [observation, hy] at hobs
      obtain ⟨new, hnew, hstarts⟩ := others_run ops hstays.tail (Or.inl (by rw [hdeb]; exact hsince)) hedges
      exact ⟨new, by rw [Lib.run_cons, hnew]; exact congrArg (· ++ new) (congrArg Prod.snd hview), hstarts⟩
    | some r =>
      rw [hobs] at hview
      obtain ⟨hsince, hstart⟩ := noneSince_observation hnone hedge hobs
      have hdeb : (d.step op).engine.debounce n = r.1 := congrArg Prod.fst hview
      have hev : (d.step op).engine.eventsOf n = d.engine.eventsOf n ++
        r.2.toList.map fun startUs => ⟨n, r.1.confirmed, startUs⟩ := congrArg Prod.snd hview
      obtain ⟨new, hnew, hstarts⟩ := others_run ops hstays.tail (Or.inl (by rw [hdeb]; exact hsince)) hedges
      refine ⟨(r.2.toList.map fun startUs => ⟨n, r.1.confirmed, startUs⟩) ++ new,
        by rw [Lib.run_cons, hnew, hev, List.append_assoc], fun ev hmem => ?_⟩
      rcases List.mem_append.mp hmem with hmem | hmem
      · obtain ⟨startUs, hs, rfl⟩ := List.mem_map.mp hmem
        exact hstart startUs (by simpa using hs)
      · exact hstarts ev hmem

/-! ### The changes that are confirmed -/

/-- The events of a pin that a run confirms. -/
def confirmedBy (d : Device) (n : Gpio) (ops : List Op) : List EdgeEvent :=
  ((Lib.run step d ops).engine.eventsOf n).drop (d.engine.eventsOf n).length

/-- In `d` a change of a pin to `raw` begins at `t`, delivered by `op`. It is an actual change for a pin
    with a debounce time, which stays tracked with its settings; `held` has no further edge of the pin,
    `rest` begins with the next one if there is one, and that is after the debounce time. -/
structure LongChange (d : Device) (n : Gpio) (raw : Bool) (t : U64) (op : Op) (held rest : List Op) :
    Prop where
  tracked : d.StaysTracked n (op :: (held ++ rest))
  debounced : d.engine.config.param n ≠ 0
  edge : d.edgeOf n op = some (raw, t)
  changes : raw ≠ (d.engine.debounce n).confirmed
  quiet : ∀ x ∈ Lib.steps step (d.step op) held, x.1.edgeOf n x.2 = none
  next : ∀ op' ∈ rest.head?, ((Lib.run step (d.step op) held).edgeOf n op').isSome = true
  lasts : ∀ x ∈ Lib.steps step (Lib.run step (d.step op) held) rest, (x.1.edgeOf n x.2).all fun y =>
    decide (t.toNat + 1000 * (d.engine.config.param n).toNat ≤ y.2.toNat)

namespace LongChange
variable {d : Device} {n : Gpio} {raw : Bool} {t : U64} {op : Op} {held rest : List Op}

theorem debounceTime_ne_zero {param : U8} (h : param ≠ 0) : debounceTime param ≠ 0 := by
  intro hzero
  have hnat := toNat_debounceTime param
  rw [hzero] at hnat
  refine h (BitVec.eq_of_toNat_eq ?_)
  have hz : (0 : U32).toNat = 0 := rfl
  have hz' : (0 : U8).toNat = 0 := rfl
  omega

/-- The change waits, and nothing is confirmed at once. -/
theorem waits (h : d.LongChange n raw t op held rest) (htimed : Timed d.engine) :
    Waits ((d.step op).engine.debounce n) raw t (d.engine.config.param n) ∧
      (d.step op).engine.eventsOf n = d.engine.eventsOf n := by
  obtain ⟨_, hset, hmode⟩ := (isTracking_iff _ n).mp h.tracked.now
  have htime := htimed n hmode hset
  have hedge : (d.engine.debounce n).edge raw t =
      ({ d.engine.debounce n with raw := raw, lastChangeUs := t, pending := true }, none) := by
    simp only [Debounce.edge]
    rw [if_neg h.changes, if_neg (by rw [htime]; exact debounceTime_ne_zero h.debounced)]
  have hview := pinView_step op (h.tracked.first op _)
  have hobs : d.observation n op = some ((d.engine.debounce n).edge raw t) := by
    have he := h.edge
    cases op <;> simp only [observation, he]
  rw [hobs, hedge] at hview
  have hdeb : (d.step op).engine.debounce n = _ := congrArg Prod.fst hview
  refine ⟨?_, (congrArg Prod.snd hview).trans (List.append_nil _)⟩
  rw [hdeb]
  exact ⟨rfl, rfl, rfl, htime⟩

/-- The edges after the change come later. -/
theorem edges_later (h : d.LongChange n raw t op held rest) :
    ∀ x ∈ Lib.steps step (d.step op) (held ++ rest), ∀ y ∈ x.1.edgeOf n x.2, y.2 ≠ t := by
  intro x hx y hy
  rw [Lib.steps_append, List.mem_append] at hx
  rcases hx with hx | hx
  · rw [h.quiet x hx] at hy
    exact absurd hy (by simp)
  · have hlate := of_decide_eq_true ((Option.all_eq_true _ _).mp (h.lasts x hx) y hy)
    have hpos : (d.engine.config.param n).toNat ≠ 0 := fun hz => h.debounced (BitVec.eq_of_toNat_eq hz)
    rintro rfl
    omega

/-- The event of the change is confirmed exactly when a task call comes at the end of its debounce time
    or later, before the next edge of the pin. -/
theorem confirmed_iff (h : d.LongChange n raw t op held rest) (htimed : Timed d.engine) :
    ⟨n, raw, t⟩ ∈ d.confirmedBy n (op :: (held ++ rest)) ↔
      ∃ op' ∈ held, pollsDue t (d.engine.config.param n) op' = true := by
  obtain ⟨hwaits, hevents⟩ := h.waits htimed
  have hedges := h.edges_later
  have hstays := h.tracked.tail
  have hall : confirmedBy d n (op :: (held ++ rest)) =
      ((Lib.run step (d.step op) (held ++ rest)).engine.eventsOf n).drop
        ((d.step op).engine.eventsOf n).length := by
    rw [hevents]; rfl
  rw [hall]
  cases hfind : held.find? (pollsDue t (d.engine.config.param n)) with
  | some due =>
    obtain ⟨hdue, early, late, rfl, hearly⟩ := List.find?_eq_some_iff_append.mp hfind
    rw [List.append_assoc, List.cons_append] at hstays hedges
    have hview := waits_run early hstays.left hwaits
      (fun x hx => h.quiet x (by rw [Lib.steps_append]; exact List.mem_append_left _ hx))
      (fun op' hop => by simpa using hearly op' hop)
    cases due with
    | task nowUs inputs =>
      have hpoll := pinView_task (hstays.right.first (.task nowUs inputs) _)
      rw [hview] at hpoll
      have hd : (Lib.run step (d.step op) early).engine.debounce n = (d.step op).engine.debounce n :=
        congrArg Prod.fst hview
      rw [hd, hwaits.poll nowUs, if_pos (of_decide_eq_true hdue)] at hpoll
      have hevent : ((Lib.run step (d.step op) early).step (.task nowUs inputs)).engine.eventsOf n =
          (d.step op).engine.eventsOf n ++ [⟨n, raw, t⟩] := congrArg Prod.snd hpoll
      have hdeb : ((Lib.run step (d.step op) early).step (.task nowUs inputs)).engine.debounce n = _ :=
        congrArg Prod.fst hpoll
      obtain ⟨new, hnew, _⟩ := others_run (late ++ rest) (t := t) hstays.right.tail
        (Or.inl (by rw [hdeb]; simp [NoneSince, PinView.observe]))
        (fun x hx => hedges x (by
          rw [Lib.steps_append]; exact List.mem_append_right _ (List.mem_cons_of_mem _ hx)))
      rw [List.append_assoc, List.cons_append, Lib.run_append, Lib.run_cons, hnew, hevent]
      simp only [List.append_assoc, List.drop_left, List.singleton_append, List.mem_cons_self, true_iff]
      exact ⟨_, by simp, hdue⟩
    | _ => exact absurd hdue (by simp [pollsDue])
  | none =>
    have hnone : ∀ op' ∈ held, pollsDue t (d.engine.config.param n) op' = false := fun op' hop => by
      simpa using List.find?_eq_none.mp hfind op' hop
    have hview := waits_run held hstays.left hwaits h.quiet hnone
    obtain ⟨new, hnew, hstarts⟩ := others_run rest (t := t) hstays.right (Or.inr h.next)
      (fun x hx => hedges x (by rw [Lib.steps_append]; exact List.mem_append_right _ hx))
    rw [show (Lib.run step (d.step op) held).engine.eventsOf n = _ from congrArg Prod.snd hview] at hnew
    rw [Lib.run_append, hnew, show (Engine.pinView (d.step op).engine n).2 = (d.step op).engine.eventsOf n
      from rfl, List.drop_left]
    constructor
    · intro hmem
      exact absurd rfl (hstarts _ hmem)
    · rintro ⟨op', hop, hdue⟩
      rw [hnone op' hop] at hdue
      exact absurd hdue (by decide)

end LongChange

/-- A change that lasts for the debounce time becomes an event exactly when a task call comes at the end
    of that time or later, and before the next edge of the pin is delivered. -/
theorem long_change_confirmed_iff (info : DeviceInfo) (startUs : U64) (before : List Op)
    {n : Gpio} {raw : Bool} {t : U64} {op : Op} {held rest : List Op}
    (h : (Lib.run step (start info startUs) before).LongChange n raw t op held rest) :
    ⟨n, raw, t⟩ ∈ (Lib.run step (start info startUs) before).confirmedBy n (op :: (held ++ rest)) ↔
      ∃ op' ∈ held, pollsDue t ((Lib.run step (start info startUs) before).engine.config.param n)
        op' = true :=
  h.confirmed_iff (timed_run info startUs before)

/-- The times of edges and task calls. -/
def timeOf : Op → Option U64
  | .onEdge _ _ nowUs => some nowUs
  | .resync _ nowUs => some nowUs
  | .task nowUs _ => some nowUs
  | _ => none

def taskTime : Op → Option U64
  | .task nowUs _ => some nowUs
  | _ => none

/-- Edges and task calls come in the order of their times. -/
def InOrder (ops : List Op) : Prop := (ops.filterMap timeOf).Pairwise fun a b => a.toNat ≤ b.toNat

/-- The task calls are at most 1 ms apart. -/
def EveryMs (ops : List Op) : Prop := (ops.filterMap taskTime).IsChain fun a b => b.toNat ≤ a.toNat + 1000

/-- A pull-up with a debounce time of 1 ms, read as high. -/
def shortRun : List Op :=
  [.task 1000 1, .setPinConfig (encodePinConfig ⟨0, 0, 1, ⟨fun n => if n.val = 0 then 2 else 0,
    fun n => if n.val = 0 then 1 else 0⟩⟩) 1000, .task 2000 1]

theorem staysTracked_iff {d : Device} {n : Gpio} {ops : List Op} :
    d.StaysTracked n ops ↔ ∀ before ∈ ops.inits, (Lib.run step d before).engine.isTracking n = true ∧
      (Lib.run step d before).engine.config.mode n = d.engine.config.mode n ∧
      (Lib.run step d before).engine.config.param n = d.engine.config.param n := by
  simp only [StaysTracked, TrackedAs, List.mem_inits]

/-- The pin is low from 2500 µs to 3600 µs; the second task call finds the change due. -/
theorem long_change_confirmed :
    ⟨0, false, 2500⟩ ∈ (Lib.run step (start (sampleInfo 1) 0) shortRun).confirmedBy 0
      (.onEdge 0 false 2500 :: ([.task 3000 0, .task 3500 0] ++ [.onEdge 0 true 3600])) :=
  (long_change_confirmed_iff (sampleInfo 1) 0 shortRun
    ⟨staysTracked_iff.mpr (by decide +kernel), by decide +kernel, by decide +kernel, by decide +kernel,
      by decide +kernel, by decide +kernel, by decide +kernel⟩).mpr (by decide +kernel)

/-- With task calls at 3000 µs and 4000 µs the same change is lost. -/
theorem long_change_lost : ¬ ∀ (info : DeviceInfo) (startUs : U64) (before : List Op) (n : Gpio) (raw : Bool)
    (t : U64) (op : Op) (held rest : List Op),
    (Lib.run step (start info startUs) before).LongChange n raw t op held rest →
    InOrder (before ++ op :: (held ++ rest)) → EveryMs (before ++ op :: (held ++ rest)) →
      ⟨n, raw, t⟩ ∈ (Lib.run step (start info startUs) before).confirmedBy n (op :: (held ++ rest)) := by
  intro h
  have hlost : ⟨0, false, 2500⟩ ∉ (Lib.run step (start (sampleInfo 1) 0) shortRun).confirmedBy 0
      (.onEdge 0 false 2500 :: ([.task 3000 0] ++ [.onEdge 0 true 3600, .task 4000 1])) := by decide +kernel
  refine hlost (h (sampleInfo 1) 0 shortRun 0 false 2500 (.onEdge 0 false 2500) [.task 3000 0]
    [.onEdge 0 true 3600, .task 4000 1] ?_ ?_ ?_)
  · exact ⟨staysTracked_iff.mpr (by decide +kernel), by decide +kernel, by decide +kernel, by decide +kernel,
      by decide +kernel, by decide +kernel, by decide +kernel⟩
  · unfold InOrder
    decide +kernel
  · unfold EveryMs
    decide +kernel

end Device

end Hidpin.Firmware
