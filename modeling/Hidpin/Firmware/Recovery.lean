import Hidpin.Firmware.Pin
import Hidpin.Firmware.Times

/-! Recovery. A resync brings the electrical values back; what then waits is a settle, or a change with a
    debounce time, and both are over once the largest debounce time has passed. -/

namespace Hidpin.Firmware

namespace Engine

/-- A settle ends at most its time after `t`; the end may wrap, which only brings it forward. -/
def SettlesBy (t : U64) (e : Engine) : Prop := e.settleDeadlineUs.toNat ≤ t.toNat + settleUs.toNat

theorem settlesBy_add {t nowUs : U64} (h : nowUs.toNat ≤ t.toNat) :
    (nowUs + settleUs).toNat ≤ t.toNat + settleUs.toNat := by
  rw [BitVec.toNat_add]
  exact (Nat.mod_le _ _).trans (Nat.add_le_add_right h _)

/-- A poll after the debounce time leaves nothing pending. -/
theorem pending_poll_late {d : Debounce} {nowUs : U64}
    (h : d.lastChangeUs.toNat + d.debounceUs.toNat ≤ nowUs.toNat) :
    (d.poll nowUs).1.pending = false := by
  rw [d.poll_eq, Debounce.due, decide_eq_true h, Bool.and_true]
  cases hpending : d.pending with
  | true => rfl
  | false => exact hpending

theorem settleDeadlineUs_task (e : Engine) (nowUs : U64) (inputs : U32) :
    (e.task nowUs inputs).settleDeadlineUs = e.settleDeadlineUs := by
  have hpoll : ∀ e : Engine, (e.pollTask nowUs).settleDeadlineUs = e.settleDeadlineUs := fun e => by
    rw [← (e.frame_pollPins nowUs).settleDeadlineUs, pollTask]
    split_ifs <;> rfl
  rw [task_eq, hpoll]
  split_ifs
  · rw [finishSettle_eq]
  · rfl

/-- A resync with the values the tracked pins already have changes nothing. -/
theorem resync_same {e : Engine} {word : U32}
    (h : ∀ n, e.isTracking n = true → (e.debounce n).raw = hasBit word n)
    (nowUs : U64) : e.resync word nowUs = e := by
  refine Lib.foldl_preserves (P := fun e' => e' = e) (fun e' n he => ?_) _ rfl
  subst he
  rw [resyncPin, rawBit_eq]
  split_ifs with hc
  · obtain ⟨ht, hne⟩ := Bool.and_eq_true_iff.mp hc
    exact absurd (h n ht).symm (of_decide_eq_true hne)
  · rfl

end Engine

namespace Device
open Engine

theorem settlesBy_step {t : U64} (d : Device) (op : Op) (h : SettlesBy t d.engine) (hop : op.By t) :
    SettlesBy t (d.step op).engine := by
  have hframe : Frame d.engine (d.step op).engine → SettlesBy t (d.step op).engine := fun hf => by
    rw [SettlesBy, hf.settleDeadlineUs]
    exact h
  cases op with
  | onEdge gpio raw nowUs => exact hframe (d.engine.frame_onEdge gpio raw nowUs)
  | resync raw nowUs => exact hframe (d.engine.frame_resync raw nowUs)
  | task nowUs inputs =>
    rw [SettlesBy, step, settleDeadlineUs_task]
    exact h
  | setPinConfig payload nowUs =>
    rcases d.engine.setPinConfig_cases payload nowUs with ⟨_, heq⟩ | ⟨next, _, ha⟩
    · rw [step, heq]
      exact h
    · rw [SettlesBy, step, ha.deadline]
      split_ifs
      · exact settlesBy_add (hop nowUs rfl)
      · exact h
  | output payload =>
    simp only [step, output]
    split <;> exact h
  | usbReset =>
    simp only [step, usbReset]
    split_ifs <;> exact h
  | getStatus nowUs => exact h
  | getDeviceInfo => exact h
  | getPinConfig => exact h
  | send nowUs accepted =>
    simp only [step, sendStatusReport_eq]
    split_ifs <;> exact h

/-- After a resync with `word` at `t`: the tracked pins have these values, and their changes began by
    then. -/
structure Resynced (word : U32) (t : U64) (d : Device) : Prop where
  inv : d.Inv
  timed : Timed d.engine
  settles : SettlesBy t d.engine
  raw : ∀ n, d.engine.isTracking n = true → (d.engine.debounce n).raw = hasBit word n
  since : ∀ n, (d.engine.debounce n).lastChangeUs.toNat ≤ t.toNat

/-- A resync after calls that were not made later. -/
theorem resynced_resync (info : DeviceInfo) {startUs t : U64} (hstart : startUs.toNat ≤ t.toNat)
    {before : List Op} (hbefore : ∀ op ∈ before, op.By t) (word : U32) :
    Resynced word t ((Lib.run step (start info startUs) before).step (.resync word t)) := by
  have hop : (Op.resync word t).By t := fun nowUs hnow => by
    obtain rfl := Option.some.inj hnow
    exact le_refl _
  have hinit : SettlesBy t (start info startUs).engine := by
    rw [start, init_eq]
    exact settlesBy_add hstart
  have hsettles := Lib.run_of_forall (P := fun d : Device => SettlesBy t d.engine) settlesBy_step
    before hinit hbefore
  refine ⟨step_inv _ _ (inv_run info startUs before), timed_step _ _ (timed_run info startUs before),
    settlesBy_step _ _ hsettles hop, fun n ht => ?_,
    (heldBy_step _ _ (heldBy_run info startUs hbefore) hop).pins⟩
  rw [step, (frame_resync _ _ _).isTracking] at ht
  rw [step, raw_resync, if_pos ht]

/-- A task call that reads the same values. -/
theorem resynced_task {word : U32} {t : U64} {d : Device} (h : Resynced word t d) (nowUs : U64) :
    Resynced word t (d.step (.task nowUs word)) := by
  have hview := fun n => congrArg Prod.fst (pinView_act h.inv n (.task nowUs word))
  have hsettles : SettlesBy t (d.step (.task nowUs word)).engine := by
    rw [SettlesBy, step, settleDeadlineUs_task]
    exact h.settles
  refine ⟨step_inv d _ h.inv, timed_step d _ h.timed, hsettles, fun n ht => ?_, fun n => ?_⟩
  · have hdeb : (d.step (.task nowUs word)).engine.debounce n = _ := hview n
    rw [hdeb]
    rcases tracked_before h.inv ht with ht | ⟨level, param, ha⟩
    · simp only [action, ht, if_true]
      split_ifs
      · rfl
      · exact (Debounce.raw_poll _ _).trans (h.raw n ht)
    · rw [ha]
      cases causes_of_action ha
      rfl
  · have hdeb : (d.step (.task nowUs word)).engine.debounce n = _ := hview n
    rw [hdeb]
    cases ha : d.action n (.task nowUs word) with
    | none => exact h.since n
    | some a =>
      cases causes_of_action ha with
      | settle _ _ _ _ => exact Nat.zero_le _
      | poll _ _ _ =>
        have hpoll := ((d.engine.debounce n).lastChangeUs_poll nowUs).1
        simp only [PinView.actOption_some, PinView.act, PinView.observe]
        rw [show (d.engine.pinView n).1 = d.engine.debounce n from rfl, hpoll]
        exact h.since n

/-- The largest debounce time, in µs. -/
def largestDebounceUs : ℕ := 255 * 1000

theorem debounceUs_le {d : Device} (h : Timed d.engine) {n : Gpio} (ht : d.engine.isTracking n = true) :
    (d.engine.debounce n).debounceUs.toNat ≤ largestDebounceUs := by
  obtain ⟨_, hset, hmode⟩ := (isTracking_iff _ n).mp ht
  have hlt := (d.engine.config.param n).isLt
  rw [h n hmode hset, toNat_debounceTime, largestDebounceUs]
  omega

/-- The task call after the largest debounce time finds no settle and no change left to wait for. -/
theorem recovered_task {word : U32} {t nowUs : U64} {d : Device} (h : Resynced word t d)
    (hlate : t.toNat + largestDebounceUs ≤ nowUs.toNat) {n : Gpio}
    (hmode : modeIsInput ((d.step (.task nowUs word)).engine.config.mode n) = true) :
    (d.step (.task nowUs word)).engine.isTracking n = true ∧
      ((d.step (.task nowUs word)).engine.debounce n).pending = false := by
  have hafter := resynced_task h nowUs
  have hidle : (d.step (.task nowUs word)).engine.settleActive = false := by
    have hpoll : ∀ e : Engine, (e.pollTask nowUs).settleActive = e.settleActive := fun e => by
      rw [← (e.frame_pollPins nowUs).settleActive, pollTask]
      split_ifs <;> rfl
    have hdue : nowUs ≥ d.engine.settleDeadlineUs := by
      have hsettles := h.settles
      rw [SettlesBy, show settleUs.toNat = 1000 from rfl] at hsettles
      rw [largestDebounceUs] at hlate
      rw [ge_iff_le, BitVec.le_def]
      omega
    rw [step, task_eq, hpoll, settles, decide_eq_true hdue, Bool.and_true]
    cases hactive : d.engine.settleActive with
    | true => rw [if_pos rfl, finishSettle_eq]
    | false => exact hactive
  have ht : (d.step (.task nowUs word)).engine.isTracking n = true :=
    (hafter.inv.toRep.isTracking_iff n).mpr ⟨(hafter.inv.settled hidle).1 n, hmode⟩
  refine ⟨ht, ?_⟩
  have hdeb : (d.step (.task nowUs word)).engine.debounce n = _ :=
    congrArg Prod.fst (pinView_act h.inv n (.task nowUs word))
  rw [hdeb]
  rcases tracked_before h.inv ht with ht | ⟨level, param, ha⟩
  · simp only [action, ht, if_true]
    split_ifs
    · rfl
    · refine pending_poll_late ?_
      have hsince := h.since n
      have hlargest := debounceUs_le h.timed ht
      rw [show (d.engine.pinView n).1 = d.engine.debounce n from rfl]
      omega
  · rw [ha]
    rfl

/-- After a resync and any task calls that read the same values, the last one after the largest debounce
    time, every input is monitored and has its electrical value, nothing is pending, and a second resync
    finds nothing to do. -/
theorem recovered (info : DeviceInfo) (startUs : U64) (before : List Op) (word : U32) (t : U64)
    (times : List U64) (last : U64) (hstart : startUs.toNat ≤ t.toNat) (hbefore : ∀ op ∈ before, op.By t)
    (hlast : t.toNat + 255 * 1000 ≤ last.toNat) :
    let d := Lib.run step (start info startUs)
      (before ++ .resync word t :: (times ++ [last]).map fun nowUs => .task nowUs word)
    (∀ n, modeIsInput (d.engine.config.mode n) = true → hasBit d.engine.monitored n = true ∧
      (d.engine.debounce n).confirmed = hasBit word n ∧ (d.engine.debounce n).pending = false) ∧
    ∀ nowUs, d.engine.resync word nowUs = d.engine := by
  intro d
  have hresync := resynced_resync info hstart hbefore word
  have htasks : Resynced word t (Lib.run step (start info startUs)
      (before ++ .resync word t :: times.map fun nowUs => .task nowUs word)) := by
    rw [Lib.run_append, Lib.run_cons, Lib.run, List.foldl_map]
    exact @Lib.run_preserves _ _ (fun d nowUs => step d (.task nowUs word)) (Resynced word t)
      (fun d nowUs h => resynced_task h nowUs) _ times hresync
  have hd : d = (Lib.run step (start info startUs)
      (before ++ .resync word t :: times.map fun nowUs => .task nowUs word)).step (.task last word) := by
    simp [d]
  rw [hd]
  generalize Lib.run step (start info startUs)
    (before ++ .resync word t :: times.map fun nowUs => .task nowUs word) = d' at htasks ⊢
  have hafter := resynced_task htasks last
  refine ⟨fun n hmode => ?_, resync_same hafter.raw⟩
  obtain ⟨ht, hpending⟩ := recovered_task htasks hlast hmode
  refine ⟨((isTracking_iff _ n).mp ht).1, ?_, hpending⟩
  have hwf := hafter.inv.toRep.debounce n
  rw [Debounce.WF, hpending] at hwf
  rw [← hafter.raw n ht]
  by_contra hne
  exact absurd (hwf.mpr (Ne.symm hne)) (by decide)

/-- A pin with a debounce time of 1 ms falls without an edge; a resync at 4000 µs finds it. -/
theorem recovered_sample :
    hasBit (Lib.run step (start (sampleInfo 1) 0) (shortRun ++ .resync 0 4000 ::
      ([4500] ++ [259000] : List U64).map fun nowUs => .task nowUs 0)).engine.confirmedLevels 0 = false := by
  have h := (recovered (sampleInfo 1) 0 shortRun 0 4000 [4500] 259000 (by decide)
    (by decide +kernel) (by decide)).1 0 (by decide +kernel)
  rw [hasBit_confirmedLevels, h.1, h.2.1]
  decide

end Device

end Hidpin.Firmware
