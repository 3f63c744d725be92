import Hidpin.Firmware.Delivery

/-! Times. A debouncer and a queued event hold times of calls that were made, so in calls whose times do
    not go back no stored time is ahead of the next call. -/

namespace Hidpin.Firmware

/-- The time a call passes to the engine. -/
def Op.nowUs : Op → Option U64
  | .onEdge _ _ nowUs => some nowUs
  | .resync _ nowUs => some nowUs
  | .task nowUs _ => some nowUs
  | .setPinConfig _ nowUs => some nowUs
  | .getStatus nowUs => some nowUs
  | .send nowUs _ => some nowUs
  | _ => none

/-- The times of the calls do not go back. -/
def InTime (ops : List Op) : Prop := (ops.filterMap Op.nowUs).Pairwise fun a b => a.toNat ≤ b.toNat

instance (ops : List Op) : Decidable (InTime ops) := inferInstanceAs (Decidable (List.Pairwise _ _))

/-- The call is not made after `t`. -/
def Op.By (t : U64) (op : Op) : Prop := ∀ nowUs ∈ op.nowUs, nowUs.toNat ≤ t.toNat

instance (t : U64) (op : Op) : Decidable (op.By t) :=
  decidable_of_iff (op.nowUs.all fun nowUs => decide (nowUs.toNat ≤ t.toNat))
    (by simp [Op.By, Option.all_eq_true])

theorem InTime.left {ops ops' : List Op} (h : InTime (ops ++ ops')) : InTime ops := by
  rw [InTime, List.filterMap_append] at h
  exact (List.pairwise_append.mp h).1

/-- The calls before one at `t` are not made after `t`. -/
theorem InTime.by_last {ops : List Op} {op : Op} (h : InTime (ops ++ [op])) {t : U64}
    (ht : op.nowUs = some t) : ∀ op' ∈ ops, op'.By t := by
  intro op' hop nowUs hnow
  rw [InTime, List.filterMap_append, List.pairwise_append] at h
  exact h.2.2 nowUs (List.mem_filterMap.mpr ⟨op', hop, hnow⟩) t (by simp [ht])

namespace Debounce

theorem lastChangeUs_edge (d : Debounce) (raw : Bool) (nowUs : U64) :
    (d.edge raw nowUs).1.lastChangeUs = nowUs ∧ ∀ startUs ∈ (d.edge raw nowUs).2, startUs = nowUs := by
  simp only [edge]
  split_ifs <;> simp

theorem lastChangeUs_poll (d : Debounce) (nowUs : U64) :
    (d.poll nowUs).1.lastChangeUs = d.lastChangeUs ∧
      ∀ startUs ∈ (d.poll nowUs).2, startUs = d.lastChangeUs := by
  simp only [poll]
  split_ifs <;> simp

theorem lastChangeUs_setTime (d : Debounce) (ms : U8) (nowUs : U64) :
    (d.setTime ms nowUs).lastChangeUs = if d.pending then nowUs else d.lastChangeUs := by
  simp only [setTime]
  split <;> rfl

/-- A change is pending and its debounce time has passed. -/
def due (d : Debounce) (nowUs : U64) : Bool :=
  d.pending && decide (d.lastChangeUs.toNat + d.debounceUs.toNat ≤ nowUs.toNat)

/-- A poll confirms what is due. -/
theorem poll_eq (d : Debounce) (nowUs : U64) :
    d.poll nowUs = if d.due nowUs then ({ d with confirmed := d.raw, pending := false }, some d.lastChangeUs)
      else (d, none) := by
  have htime : (d.debounceUs.setWidth 64).toNat = d.debounceUs.toNat := by
    rw [BitVec.toNat_setWidth, Nat.mod_eq_of_lt (d.debounceUs.isLt.trans (by decide))]
  simp only [poll, due]
  rcases Bool.eq_false_or_eq_true d.pending with hpending | hpending
  · simp only [hpending, Bool.true_and, decide_eq_true_eq, Bool.true_eq_false, false_or,
      BitVec.lt_def, htime]
    by_cases hearly : nowUs.toNat < d.lastChangeUs.toNat
    · rw [if_pos hearly, if_neg (by omega)]
    · have hsub : (nowUs - d.lastChangeUs).toNat = nowUs.toNat - d.lastChangeUs.toNat :=
        BitVec.toNat_sub_of_le (BitVec.le_def.mpr (Nat.le_of_not_lt hearly))
      rw [if_neg hearly, hsub]
      by_cases hlate : d.lastChangeUs.toNat + d.debounceUs.toNat ≤ nowUs.toNat
      · rw [if_neg (by omega), if_pos hlate]
      · rw [if_pos (by omega), if_neg hlate]
  · simp [hpending]

end Debounce

/-! ### The age of an event -/

/-- The largest age a report can say. -/
def saturatedUs : ℕ := 2 ^ 32 - 1

theorem toNat_eventAge {nowUs startUs : U64} (h : startUs.toNat ≤ nowUs.toNat) :
    (eventAge nowUs startUs).toNat = min (nowUs.toNat - startUs.toNat) saturatedUs := by
  have hsub : (nowUs - startUs).toNat = nowUs.toNat - startUs.toNat :=
    BitVec.toNat_sub_of_le (BitVec.le_def.mpr h)
  have hmax : ((0xFFFFFFFF : U64)).toNat = saturatedUs := by decide
  have hmax32 : ((0xFFFFFFFF : U32)).toNat = saturatedUs := by decide
  simp only [eventAge, ge_iff_le, gt_iff_lt, BitVec.le_def, BitVec.lt_def, hsub, hmax]
  split_ifs with hfuture hold
  · rw [show (0 : U32).toNat = 0 from rfl]
    omega
  · rw [hmax32]
    omega
  · rw [BitVec.toNat_setWidth, hsub, Nat.mod_eq_of_lt (by rw [saturatedUs] at hold; omega)]
    omega

/-- What the age says about the start. -/
theorem toNat_sub_eventAge {nowUs startUs : U64} (h : startUs.toNat ≤ nowUs.toNat) :
    (nowUs - (eventAge nowUs startUs).setWidth 64).toNat =
      max startUs.toNat (nowUs.toNat - saturatedUs) := by
  have hage := toNat_eventAge h
  have hwide : ((eventAge nowUs startUs).setWidth 64).toNat = (eventAge nowUs startUs).toNat := by
    rw [BitVec.toNat_setWidth, Nat.mod_eq_of_lt ((eventAge nowUs startUs).isLt.trans (by decide))]
  rw [BitVec.toNat_sub_of_le (by rw [BitVec.le_def, hwide, hage]; omega), hwide, hage]
  omega

namespace Engine

/-- Every time an engine holds for a pin or an event is at most `t`. -/
structure HeldBy (t : U64) (e : Engine) : Prop where
  pins : ∀ n, (e.debounce n).lastChangeUs.toNat ≤ t.toNat
  events : ∀ c ∈ e.history, c.event.startUs.toNat ≤ t.toNat

namespace HeldBy
variable {t : U64} {e : Engine}

theorem observe (h : HeldBy t e) (n : Gpio) {r : Debounce × Option U64}
    (hlast : r.1.lastChangeUs.toNat ≤ t.toNat) (hstart : ∀ startUs ∈ r.2, startUs.toNat ≤ t.toNat) :
    HeldBy t (e.observe n r) := by
  refine ⟨fun m => ?_, ?_⟩
  · rw [debounce_observe]
    by_cases hm : m = n
    · subst hm
      simpa using hlast
    · simpa [hm] using h.pins m
  · rcases r with ⟨d, _ | startUs⟩
    · exact h.events
    · intro c hc
      rcases List.mem_append.mp hc with hc | hc
      · exact h.events c hc
      · obtain rfl := List.mem_singleton.mp hc
        exact hstart startUs rfl

theorem onEdge (h : HeldBy t e) (gpio : U8) (raw : Bool) {nowUs : U64} (hnow : nowUs.toNat ≤ t.toNat) :
    HeldBy t (e.onEdge gpio raw nowUs) := by
  unfold Engine.onEdge
  split_ifs
  · rw [edgeAt_eq_observe]
    obtain ⟨hlast, hstart⟩ := (e.debounce _).lastChangeUs_edge raw nowUs
    refine h.observe _ (by rw [hlast]; exact hnow) fun startUs hs => ?_
    rw [hstart startUs hs]
    exact hnow
  · exact h
  · exact h

theorem resync (h : HeldBy t e) (raw : U32) {nowUs : U64} (hnow : nowUs.toNat ≤ t.toNat) :
    HeldBy t (e.resync raw nowUs) := by
  refine Lib.foldl_preserves (fun e n he => ?_) _ h
  unfold resyncPin
  split_ifs
  · exact he.onEdge _ _ hnow
  · exact he

theorem pollPins (h : HeldBy t e) (nowUs : U64) : HeldBy t (e.pollPins nowUs) := by
  refine Lib.foldl_preserves (fun e n he => ?_) _ h
  rw [pollPin_eq_observe]
  split_ifs
  · obtain ⟨hlast, hstart⟩ := (e.debounce n).lastChangeUs_poll nowUs
    refine he.observe n (by rw [hlast]; exact he.pins n) fun startUs hs => ?_
    rw [hstart startUs hs]
    exact he.pins n
  · exact he

theorem pollTask (h : HeldBy t e) (nowUs : U64) : HeldBy t (e.pollTask nowUs) := by
  have hpoll := h.pollPins nowUs
  unfold Engine.pollTask
  split_ifs
  · exact ⟨hpoll.pins, hpoll.events⟩
  · exact hpoll

theorem finishSettle (h : HeldBy t e) (inputs : U32) : HeldBy t (e.finishSettle inputs) := by
  rw [finishSettle_eq]
  refine ⟨fun n => ?_, h.events⟩
  simp only [readDebounce]
  split_ifs
  · exact Nat.zero_le _
  · exact h.pins n

theorem setPinConfig (h : HeldBy t e) (payload : List U8) {nowUs : U64} (hnow : nowUs.toNat ≤ t.toNat) :
    HeldBy t (e.setPinConfig payload nowUs) := by
  rcases e.setPinConfig_cases payload nowUs with ⟨_, heq⟩ | ⟨next, _, ha⟩
  · rw [heq]
    exact ⟨h.pins, h.events⟩
  · refine ⟨fun n => ?_, by rw [ha.history]; exact h.events⟩
    rw [ha.debounce, appliedDebounce]
    split_ifs
    · rw [Debounce.lastChangeUs_setTime]
      split_ifs
      · exact hnow
      · exact h.pins n
    · exact h.pins n

end HeldBy

end Engine

namespace Device
open Engine

theorem heldBy_step {t : U64} (d : Device) (op : Op) (h : HeldBy t d.engine) (hop : op.By t) :
    HeldBy t (d.step op).engine := by
  cases op with
  | onEdge gpio raw nowUs => exact h.onEdge gpio raw (hop nowUs rfl)
  | resync raw nowUs => exact h.resync raw (hop nowUs rfl)
  | task nowUs inputs =>
    rw [step, task_eq]
    cases d.engine.settles nowUs
    · exact h.pollTask nowUs
    · exact (h.finishSettle inputs).pollTask nowUs
  | setPinConfig payload nowUs => exact h.setPinConfig payload (hop nowUs rfl)
  | output payload =>
    simp only [step, output]
    split <;> exact ⟨h.pins, h.events⟩
  | usbReset =>
    simp only [step, usbReset]
    split_ifs <;> exact ⟨h.pins, h.events⟩
  | getStatus nowUs => exact h
  | getDeviceInfo => exact h
  | getPinConfig => exact h
  | send nowUs accepted =>
    simp only [step, sendStatusReport_eq]
    split_ifs <;> exact ⟨h.pins, h.events⟩

theorem heldBy_run (info : DeviceInfo) (startUs : U64) {t : U64} {ops : List Op}
    (hops : ∀ op ∈ ops, op.By t) : HeldBy t (Lib.run step (start info startUs) ops).engine := by
  refine Lib.run_of_forall (P := fun d : Device => HeldBy t d.engine) heldBy_step ops ?_ hops
  rw [start, init_eq]
  exact ⟨fun n => Nat.zero_le _, by simp [blank]⟩

end Device

end Hidpin.Firmware
