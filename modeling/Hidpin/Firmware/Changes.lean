import Hidpin.Firmware.Pin
import Hidpin.Firmware.Times

/-! Debouncing invents nothing. Between two settles the events of a pin flip its confirmed level, one after
    the other; and a confirmed level is the one of the last edge given for the pin, which has waited since
    then, or since its debounce time was changed, for the debounce time. -/

namespace Hidpin.Firmware

namespace Engine

/-- The events added between two views of a pin flip its confirmed level in turn. -/
def Alternates (v v' : PinView) : Prop :=
  ∃ new, v'.2 = v.2 ++ new ∧ (v.1.confirmed :: new.map EdgeEvent.level).IsChain (· ≠ ·) ∧
    (v.1.confirmed :: new.map EdgeEvent.level).getLast? = some v'.1.confirmed

theorem Alternates.of_none {v v' : PinView} (he : v'.2 = v.2) (hc : v'.1.confirmed = v.1.confirmed) :
    Alternates v v' := ⟨[], by simp [he], by simp, by simp [hc]⟩

theorem Alternates.trans {v v' v'' : PinView} (h : Alternates v v') (h' : Alternates v' v'') :
    Alternates v v'' := by
  obtain ⟨new, he, hchain, hlast⟩ := h
  obtain ⟨new', he', hchain', hlast'⟩ := h'
  refine ⟨new ++ new', by rw [he', he, List.append_assoc], ?_, ?_⟩
  · rw [List.map_append, ← List.cons_append, List.isChain_append]
    refine ⟨hchain, hchain'.tail, fun x hx y hy => ?_⟩
    obtain rfl : v'.1.confirmed = x := Option.some.inj (hlast.symm.trans hx)
    exact hchain'.rel_head? hy
  · rw [List.map_append, ← List.cons_append, List.getLast?_append, hlast]
    rcases new' with _ | ⟨ev, new'⟩
    · simpa using hlast'
    · rw [List.map_cons, List.getLast?_cons_cons] at hlast'
      rw [List.map_cons, hlast']
      rfl

/-- An observation adds no event, or the one that flips the confirmed level. -/
theorem alternates_observe {v : PinView} {r : Debounce × Option U64} (n : Gpio) (hr : v.1.Change r) :
    Alternates v (v.observe n r) := by
  rcases r with ⟨d, _ | startUs⟩
  · exact .of_none (List.append_nil _) (hr.keep rfl)
  · have hflip : d.confirmed = !v.1.confirmed := hr.flip (by simp)
    exact ⟨[⟨n, d.confirmed, startUs⟩], rfl, by simp [hflip], rfl⟩

theorem alternates_act {v : PinView} (hv : v.1.WF) (n : Gpio) {a : PinAction}
    (ha : ∀ level param, a ≠ .settle level param) : Alternates v (v.act n a) := by
  cases a with
  | settle level param => exact absurd rfl (ha level param)
  | retime param nowUs => exact .of_none rfl (v.1.confirmed_setTime param nowUs)
  | edge raw nowUs => exact alternates_observe n (v.1.change_edge raw nowUs)
  | poll nowUs => exact alternates_observe n (Debounce.change_poll hv nowUs)

end Engine

namespace Device
open Engine

/-- The level read when an operation settles a pin. -/
def settledTo (n : Gpio) (x : Device × Op) : Option Bool :=
  match x.2 with
  | .task nowUs inputs =>
    if x.1.engine.settles nowUs = true ∧ hasBit x.1.engine.settling n = true then some (hasBit inputs n)
      else none
  | _ => none

theorem settledTo_of_action {d : Device} {n : Gpio} {op : Op} {level : Bool} {param : U8}
    (h : d.action n op = some (.settle level param)) : settledTo n (d, op) = some level := by
  cases causes_of_action h with
  | settle nowUs inputs hs hset => exact if_pos ⟨hs, hset⟩

theorem alternates_step {d : Device} (h : d.Inv) {n : Gpio} {op : Op} (hop : settledTo n (d, op) = none) :
    Alternates (d.engine.pinView n) ((d.step op).engine.pinView n) := by
  rw [pinView_act h]
  cases ha : d.action n op with
  | none => exact .of_none rfl rfl
  | some a =>
    refine alternates_act (h.toRep.debounce n) n fun level param hsettle => ?_
    rw [settledTo_of_action (ha.trans (congrArg some hsettle))] at hop
    exact absurd hop (by simp)

/-- Without a settle of the pin, its events flip the confirmed level in turn. -/
theorem alternates_run {n : Gpio} : ∀ (ops : List Op) {d : Device}, d.Inv →
    (∀ x ∈ Lib.steps step d ops, settledTo n x = none) →
      Alternates (d.engine.pinView n) ((Lib.run step d ops).engine.pinView n)
  | [], _, _, _ => .of_none rfl rfl
  | op :: ops, d, h, hnone => by
    obtain ⟨hop, hnone⟩ := List.forall_mem_cons.mp hnone
    exact (alternates_step h hop).trans (alternates_run ops (step_inv d op h) hnone)

/-! ### Where a change comes from -/

/-- The edge of a pin that an operation gives to the engine: the level and the time. -/
def edgeGiven (n : Gpio) (x : Device × Op) : Option (Bool × U64) :=
  match x.2 with
  | .onEdge gpio raw nowUs => if gpio = n.toU8 then some (raw, nowUs) else none
  | .resync raw nowUs =>
    if x.1.engine.isTracking n = true ∧ hasBit raw n ≠ (x.1.engine.debounce n).raw then
      some (hasBit raw n, nowUs)
    else none
  | _ => none

/-- The time of a Set that changes the debounce time of a pin with a pending change. -/
def retimedAt (n : Gpio) (x : Device × Op) : Option U64 :=
  match x.2 with
  | .setPinConfig payload nowUs => (x.1.engine.acceptedConfig payload).bind fun next =>
    if retimes x.1.engine.config next n && (x.1.engine.debounce n).pending then some nowUs else none
  | _ => none

/-- The last edge of a pin that the steps give to the engine. -/
def lastEdge (n : Gpio) (tr : List (Device × Op)) : Option (Bool × U64) :=
  (tr.filterMap (edgeGiven n)).getLast?

/-- The change that the last edge of the pin began counts from `s`: that edge came then, or its debounce
    time was changed then. No edge came later. -/
def CountsFrom (n : Gpio) (tr : List (Device × Op)) (raw : Bool) (s : U64) : Prop :=
  ∃ early x late, tr = early ++ x :: late ∧ (∀ y ∈ late, edgeGiven n y = none) ∧
    (edgeGiven n x = some (raw, s) ∨
      edgeGiven n x = none ∧ retimedAt n x = some s ∧ (lastEdge n early).map Prod.fst = some raw)

theorem lastEdge_append {n : Gpio} {early late : List (Device × Op)} (h : ∀ y ∈ late, edgeGiven n y = none) :
    lastEdge n (early ++ late) = lastEdge n early := by
  rw [lastEdge, List.filterMap_append, List.filterMap_eq_nil_iff.mpr h, List.append_nil, lastEdge]

theorem lastEdge_concat_some {n : Gpio} {early : List (Device × Op)} {x : Device × Op} {y : Bool × U64}
    (h : edgeGiven n x = some y) : lastEdge n (early ++ [x]) = some y := by
  simp [lastEdge, List.filterMap_append, h]

theorem CountsFrom.append {n : Gpio} {tr late : List (Device × Op)} {raw : Bool} {s : U64}
    (h : CountsFrom n tr raw s) (hlate : ∀ y ∈ late, edgeGiven n y = none) :
    CountsFrom n (tr ++ late) raw s := by
  obtain ⟨early, x, late', rfl, hnone, hx⟩ := h
  refine ⟨early, x, late' ++ late, by simp, fun y hy => ?_, hx⟩
  rcases List.mem_append.mp hy with hy | hy
  · exact hnone y hy
  · exact hlate y hy

/-- The level is that of the last edge. -/
theorem CountsFrom.lastEdge {n : Gpio} {tr : List (Device × Op)} {raw : Bool} {s : U64}
    (h : CountsFrom n tr raw s) : (lastEdge n tr).map Prod.fst = some raw := by
  obtain ⟨early, x, late, rfl, hnone, hx⟩ := h
  rw [show early ++ x :: late = early ++ [x] ++ late by simp, lastEdge_append hnone]
  rcases hx with hx | ⟨hx, _, hlast⟩
  · rw [lastEdge_concat_some hx]
    rfl
  · rwa [lastEdge_append (by simpa using hx)]

/-- A pending change of a tracked pin counts from its edge or its new debounce time. -/
def PendingCounts (n : Gpio) (tr : List (Device × Op)) (e : Engine) : Prop :=
  e.isTracking n = true → (e.debounce n).pending = true →
    CountsFrom n tr (e.debounce n).raw (e.debounce n).lastChangeUs

/-- An operation that does not give an edge to a tracked pin gives none for it. -/
theorem edgeGiven_of_action {d : Device} {n : Gpio} {op : Op} (ht : d.engine.isTracking n = true) :
    edgeGiven n (d, op) = match d.action n op with
      | some (.edge raw nowUs) => some (raw, nowUs)
      | _ => none := by
  cases op with
  | onEdge gpio raw nowUs =>
    simp only [edgeGiven, action, ht, and_true]
    split_ifs <;> rfl
  | resync raw nowUs =>
    simp only [edgeGiven, action, ht, true_and]
    split_ifs <;> rfl
  | task nowUs inputs =>
    simp only [edgeGiven, action]
    split_ifs <;> rfl
  | setPinConfig payload nowUs =>
    simp only [edgeGiven, action]
    cases d.engine.acceptedConfig payload with
    | none => rfl
    | some next =>
      rw [Option.bind_some]
      split_ifs <;> rfl
  | _ => rfl

theorem retimedAt_of_action {d : Device} {n : Gpio} {op : Op} {param : U8} {nowUs : U64}
    (h : d.action n op = some (.retime param nowUs)) (hpending : (d.engine.debounce n).pending = true) :
    retimedAt n (d, op) = some nowUs := by
  cases causes_of_action h with
  | retime payload _ next hnext hr => simp [retimedAt, hnext, hr, hpending]

theorem pending_poll {d : Debounce} {nowUs : U64} (h : (d.poll nowUs).1.pending = true) :
    (d.poll nowUs).1 = d := by
  rw [d.poll_eq] at h ⊢
  split_ifs at h ⊢
  rfl

theorem pendingCounts_step {d : Device} (h : d.Inv) {n : Gpio} {tr : List (Device × Op)} (op : Op)
    (hd : PendingCounts n tr d.engine) : PendingCounts n (tr ++ [(d, op)]) (d.step op).engine := by
  intro ht hpending
  have hview := pinView_act h n op
  have hdeb := congrArg Prod.fst hview
  rcases tracked_before h ht with ht | ⟨level, param, ha⟩
  · have hgiven : edgeGiven n (d, op) = _ := edgeGiven_of_action ht
    cases ha : d.action n op with
    | none =>
      rw [ha] at hdeb hgiven
      rw [show (d.step op).engine.debounce n = d.engine.debounce n from hdeb] at hpending ⊢
      exact (hd ht hpending).append (by simpa using hgiven)
    | some a =>
      rw [ha] at hdeb hgiven
      cases a with
      | settle level param =>
        rw [show (d.step op).engine.debounce n = Debounce.reset level param from hdeb] at hpending
        exact absurd hpending (by simp [Debounce.reset])
      | retime param nowUs =>
        rw [show (d.step op).engine.debounce n = (d.engine.debounce n).setTime param nowUs
          from hdeb] at hpending ⊢
        rw [Debounce.pending_setTime] at hpending
        refine ⟨tr, (d, op), [], rfl, by simp, Or.inr ⟨hgiven, ?_, ?_⟩⟩
        · rw [Debounce.lastChangeUs_setTime, if_pos hpending]
          exact retimedAt_of_action ha hpending
        · rw [Debounce.raw_setTime]
          exact (hd ht hpending).lastEdge
      | edge raw nowUs =>
        rw [show (d.step op).engine.debounce n = ((d.engine.debounce n).edge raw nowUs).1
          from hdeb] at hpending ⊢
        refine ⟨tr, (d, op), [], rfl, by simp, Or.inl ?_⟩
        rw [hgiven, Debounce.raw_edge, Debounce.edge]
        split_ifs <;> rfl
      | poll nowUs =>
        rw [show (d.step op).engine.debounce n = ((d.engine.debounce n).poll nowUs).1
          from hdeb] at hpending ⊢
        have hsame := pending_poll hpending
        rw [hsame] at hpending ⊢
        exact (hd ht hpending).append (by simpa using hgiven)
  · rw [ha] at hdeb
    rw [show (d.step op).engine.debounce n = Debounce.reset level param from hdeb] at hpending
    exact absurd hpending (by simp [Debounce.reset])

theorem pendingCounts_run (info : DeviceInfo) (startUs : U64) (n : Gpio) (ops : List Op) :
    PendingCounts n (Lib.steps step (start info startUs) ops)
      (Lib.run step (start info startUs) ops).engine := by
  induction ops using List.reverseRecOn with
  | nil =>
    intro _ hpending
    rw [Lib.run_nil, start, init_eq] at hpending
    exact absurd hpending (by simp [blank, Debounce.zero])
  | append_singleton ops op ih =>
    rw [Lib.steps_concat, Lib.run_append, Lib.run_cons, Lib.run_nil]
    exact pendingCounts_step (inv_run info startUs ops) op ih

/-! ### What is confirmed -/

theorem edge_confirms {d : Debounce} {raw : Bool} {nowUs startUs : U64}
    (h : (d.edge raw nowUs).2 = some startUs) :
    startUs = nowUs ∧ (d.edge raw nowUs).1.confirmed = raw ∧ d.debounceUs = 0 := by
  have hlevel := d.confirmed_edge raw nowUs
  rw [h, if_neg (by simp)] at hlevel
  refine ⟨(d.lastChangeUs_edge raw nowUs).2 startUs h, hlevel, ?_⟩
  simp only [Debounce.edge] at h
  split_ifs at h with _ hzero
  exact hzero

theorem poll_confirms {d : Debounce} {nowUs startUs : U64} (h : (d.poll nowUs).2 = some startUs) :
    d.pending = true ∧ startUs = d.lastChangeUs ∧ (d.poll nowUs).1.confirmed = d.raw ∧
      startUs.toNat + d.debounceUs.toNat ≤ nowUs.toNat := by
  rw [d.poll_eq] at h ⊢
  split_ifs at h ⊢ with hdue
  obtain ⟨hpending, hlate⟩ := Bool.and_eq_true_iff.mp hdue
  cases h
  exact ⟨hpending, rfl, rfl, of_decide_eq_true hlate⟩

/-- An edge or a poll of a pin comes from an operation at that time, while the pin is tracked. -/
theorem observed_tracked {d : Device} {n : Gpio} {op : Op} {nowUs : U64}
    (h : (∃ raw, d.action n op = some (.edge raw nowUs)) ∨ d.action n op = some (.poll nowUs)) :
    d.engine.isTracking n = true ∧ timeOf op = some nowUs := by
  rcases h with ⟨raw, h⟩ | h
  · cases causes_of_action h with
    | onEdge _ _ ht => exact ⟨ht, rfl⟩
    | resync _ _ ht _ => exact ⟨ht, rfl⟩
  · cases causes_of_action h with
    | poll _ _ ht => exact ⟨ht, rfl⟩

/-- The events an operation confirms for a pin are those of its action. -/
theorem confirmedBy_action {d : Device} (h : d.Inv) (n : Gpio) (op : Op) :
    d.confirmedBy n [op] = match d.action n op with
      | some (.edge raw nowUs) => ((d.engine.debounce n).edge raw nowUs).2.toList.map fun startUs =>
          ⟨n, ((d.engine.debounce n).edge raw nowUs).1.confirmed, startUs⟩
      | some (.poll nowUs) => ((d.engine.debounce n).poll nowUs).2.toList.map fun startUs =>
          ⟨n, ((d.engine.debounce n).poll nowUs).1.confirmed, startUs⟩
      | _ => [] := by
  have hevents : (d.step op).engine.eventsOf n = ((d.engine.pinView n).actOption n (d.action n op)).2 :=
    congrArg Prod.snd (pinView_act h n op)
  rw [confirmedBy, Lib.run_cons, Lib.run_nil, hevents]
  rcases d.action n op with _ | a
  · exact List.drop_length
  · cases a with
    | settle level param => exact List.drop_length
    | retime param nowUs => exact List.drop_length
    | edge raw nowUs => exact List.drop_left
    | poll nowUs => exact List.drop_left

theorem nowUs_edgeGiven {n : Gpio} {x : Device × Op} {y : Bool × U64} (h : edgeGiven n x = some y) :
    x.2.nowUs = some y.2 := by
  obtain ⟨d, op⟩ := x
  cases op with
  | onEdge gpio raw nowUs => obtain ⟨-, ⟨⟩⟩ := Option.ite_none_right_eq_some.mp h; rfl
  | resync word nowUs => obtain ⟨-, ⟨⟩⟩ := Option.ite_none_right_eq_some.mp h; rfl
  | _ => cases h

theorem nowUs_retimedAt {n : Gpio} {x : Device × Op} {nowUs : U64} (h : retimedAt n x = some nowUs) :
    x.2.nowUs = some nowUs := by
  obtain ⟨d, op⟩ := x
  cases op with
  | setPinConfig payload t =>
    obtain ⟨next, -, h⟩ := Option.bind_eq_some_iff.mp h
    obtain ⟨-, ⟨⟩⟩ := Option.ite_none_right_eq_some.mp h
    rfl
  | _ => cases h

/-- In calls whose times do not go back, no edge of the pin is later than the time a change counts from. -/
theorem CountsFrom.edges_before {n : Gpio} {d : Device} {ops : List Op} {raw : Bool} {s : U64}
    (h : CountsFrom n (Lib.steps step d ops) raw s) (hord : InTime ops) :
    ∀ x ∈ Lib.steps step d ops, ∀ y ∈ edgeGiven n x, y.2.toNat ≤ s.toNat := by
  obtain ⟨early, x, late, htr, hnone, hx⟩ := h
  have hs : x.2.nowUs = some s := by
    rcases hx with hx | ⟨_, hx, _⟩
    · exact nowUs_edgeGiven hx
    · exact nowUs_retimedAt hx
  have hops : ops = early.map Prod.snd ++ x.2 :: late.map Prod.snd := by
    rw [← Lib.map_snd_steps step d ops, htr, List.map_append, List.map_cons]
  intro z hz y hy
  rw [htr, List.mem_append, List.mem_cons] at hz
  rcases hz with hz | rfl | hz
  · rw [hops, InTime, List.filterMap_append, List.pairwise_append] at hord
    exact hord.2.2 y.2 (List.mem_filterMap.mpr ⟨z.2, List.mem_map_of_mem hz, nowUs_edgeGiven hy⟩)
      s (by simp [hs])
  · rcases hx with hx | ⟨hx, _, _⟩
    · obtain rfl := Option.some.inj (hx.symm.trans hy)
      exact le_refl _
    · rw [hx] at hy
      cases hy
  · rw [hnone z hz] at hy
    cases hy

/-- A confirmed level is that of the last edge of the pin, no edge of it came since the start of the change,
    and the debounce time has passed since then. -/
theorem counted_of_confirmed {d : Device} (h : d.Inv) (htimed : Timed d.engine) {n : Gpio}
    {tr : List (Device × Op)} (hcounts : PendingCounts n tr d.engine) {op : Op} {ev : EdgeEvent}
    (hev : ev ∈ d.confirmedBy n [op]) :
    ∃ t, timeOf op = some t ∧ CountsFrom n (tr ++ [(d, op)]) ev.level ev.startUs ∧
      ev.startUs.toNat + 1000 * (d.engine.config.param n).toNat ≤ t.toNat := by
  have htime : d.engine.isTracking n = true →
      (d.engine.debounce n).debounceUs.toNat = 1000 * (d.engine.config.param n).toNat := fun ht => by
    obtain ⟨_, hset, hmode⟩ := (isTracking_iff _ n).mp ht
    rw [htimed n hmode hset, toNat_debounceTime]
  rw [confirmedBy_action h] at hev
  rcases ha : d.action n op with _ | (_ | _ | ⟨raw, nowUs⟩ | nowUs)
  · simp [ha] at hev
  · simp [ha] at hev
  · simp [ha] at hev
  · simp only [ha, List.mem_map, Option.mem_toList] at hev
    obtain ⟨start, hstart, rfl⟩ := hev
    obtain ⟨ht, hop⟩ := observed_tracked (Or.inl ⟨raw, ha⟩)
    obtain ⟨rfl, hlevel, hzero⟩ := edge_confirms hstart
    refine ⟨_, hop, ⟨_, (d, op), [], rfl, by simp, Or.inl ?_⟩, ?_⟩
    · rw [edgeGiven_of_action ht, ha, hlevel]
    · rw [← htime ht, hzero]
      exact le_refl _
  · simp only [ha, List.mem_map, Option.mem_toList] at hev
    obtain ⟨start, hstart, rfl⟩ := hev
    obtain ⟨ht, hop⟩ := observed_tracked (Or.inr ha)
    obtain ⟨hpending, rfl, hlevel, hlate⟩ := poll_confirms hstart
    refine ⟨_, hop, ?_, ?_⟩
    · rw [hlevel]
      exact (hcounts ht hpending).append (by simp [edgeGiven_of_action ht, ha])
    · rw [← htime ht]
      exact hlate

/-- From a settle on, the levels of the confirmed events of a pin alternate, beginning with the opposite of
    the level read there; and each event says what the last edge of the pin said, which nothing contradicted
    for the debounce time. -/
theorem nothing_invented (info : DeviceInfo) (startUs : U64) (before : List Op) (n : Gpio) (op : Op) :
    let d := Lib.run step (start info startUs) before
    (∀ held level, settledTo n (d, op) = some level →
      (∀ x ∈ Lib.steps step (d.step op) held, settledTo n x = none) →
        (level :: (d.confirmedBy n (op :: held)).map EdgeEvent.level).IsChain (· ≠ ·)) ∧
    ∀ ev ∈ d.confirmedBy n [op],
      let tr := Lib.steps step (start info startUs) (before ++ [op])
      (lastEdge n tr).map Prod.fst = some ev.level ∧ CountsFrom n tr ev.level ev.startUs ∧
      (InTime (before ++ [op]) → ∀ x ∈ tr, ∀ y ∈ edgeGiven n x, y.2.toNat ≤ ev.startUs.toNat) ∧
      ∃ t, timeOf op = some t ∧ ev.startUs.toNat + 1000 * (d.engine.config.param n).toNat ≤ t.toNat := by
  intro d
  have hinv : d.Inv := inv_run info startUs before
  constructor
  · intro held level hsettle hnone
    have hview := pinView_act hinv n op
    cases op with
    | task nowUs inputs =>
      obtain ⟨hcond, ⟨⟩⟩ := Option.ite_none_right_eq_some.mp hsettle
      rw [show d.action n (.task nowUs inputs) = _ from if_pos hcond] at hview
      obtain ⟨new, hnew, hchain, _⟩ := alternates_run held (step_inv d (.task nowUs inputs) hinv) hnone
      have hdeb : (d.step (.task nowUs inputs)).engine.debounce n = _ := congrArg Prod.fst hview
      have hevents : (d.step (.task nowUs inputs)).engine.eventsOf n = d.engine.eventsOf n :=
        congrArg Prod.snd hview
      have hrun : (Lib.run step (d.step (.task nowUs inputs)) held).engine.eventsOf n =
          d.engine.eventsOf n ++ new := by
        rw [← hevents]
        exact hnew
      rw [confirmedBy, Lib.run_cons, hrun, List.drop_left]
      rwa [show ((d.step (.task nowUs inputs)).engine.pinView n).1 = _ from hdeb] at hchain
    | _ => cases hsettle
  · intro ev hev tr
    obtain ⟨t, ht, hcounts, hlate⟩ := counted_of_confirmed hinv (timed_run info startUs before)
      (pendingCounts_run info startUs n before) hev
    rw [← Lib.steps_concat] at hcounts
    exact ⟨hcounts.lastEdge, hcounts, hcounts.edges_before, t, ht, hlate⟩

/-- The pin of `shortRun`, read as high, is low from 2500 µs on and high again from 4000 µs. -/
def lowThenHigh : List Op := [.onEdge 0 false 2500, .task 3500 0, .onEdge 0 true 4000, .task 5000 1]

/-- Its events alternate, and the second one is about the second edge. -/
theorem nothing_invented_sample :
    (true :: ((start (sampleInfo 1) 0).confirmedBy 0 (shortRun ++ lowThenHigh)).map EdgeEvent.level).IsChain
        (· ≠ ·) ∧
      (lastEdge 0 (Lib.steps step (start (sampleInfo 1) 0) (shortRun ++ lowThenHigh))).map Prod.fst =
        some true :=
  ⟨(nothing_invented (sampleInfo 1) 0 [] 0 (.task 1000 1)).1 (shortRun.tail ++ lowThenHigh) true
      (by decide +kernel) (by decide +kernel),
    ((nothing_invented (sampleInfo 1) 0 (shortRun ++ lowThenHigh.take 3) 0 (.task 5000 1)).2 ⟨0, true, 4000⟩
      (by decide +kernel)).1⟩

end Device

end Hidpin.Firmware
