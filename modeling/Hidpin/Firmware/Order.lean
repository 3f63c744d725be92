import Hidpin.Firmware.Pin
import Hidpin.Firmware.Times

/-! The order of the events in a report. The queue holds them in the order they were confirmed. A change
    that waits for its debounce time, or that falls due together with one of a higher GPIO, can be confirmed
    after a change that started later. -/

namespace Hidpin.Firmware

/-- Events in the order of their starts. -/
def StartOrder (events : List EdgeEvent) : Prop :=
  events.Pairwise fun a b => a.startUs.toNat ≤ b.startUs.toNat

instance (events : List EdgeEvent) : Decidable (StartOrder events) :=
  inferInstanceAs (Decidable (List.Pairwise _ _))

/-- The starts of the events, as a report says them. -/
def startsOf (s : Status) : List U64 := s.events.map fun ev => s.timestampUs - ev.ageUs.setWidth 64

namespace EventQueue

/-- A push appends while there is room. -/
theorem toList_push_take {q : EventQueue} (h : q.WF) (ev : EdgeEvent) :
    (q.push ev).toList = (q.toList ++ [ev]).take eventQueueSize := by
  have hlen := length_le h
  rw [toList_push]
  split_ifs with hroom
  · rw [List.take_of_length_le (by rw [List.length_append, List.length_singleton]; exact hroom)]
  · rw [List.take_append_of_le_length (Nat.le_of_not_lt hroom), List.take_of_length_le hlen]

end EventQueue

namespace Engine

/-- The change of a pin that a poll at this time confirms. -/
def dueChange (e : Engine) (nowUs : U64) (n : Gpio) : Option EdgeEvent :=
  if e.isTracking n && (e.debounce n).due nowUs
  then some ⟨n, (e.debounce n).raw, (e.debounce n).lastChangeUs⟩ else none

/-- The changes that fall due, in the order of the pins. -/
def dueChanges (e : Engine) (nowUs : U64) : List EdgeEvent :=
  (List.finRange gpioCount).filterMap (e.dueChange nowUs)

theorem take_take_append {α : Type} (k : ℕ) (l l' : List α) :
    (l.take k ++ l').take k = (l ++ l').take k := by
  rw [List.take_append, List.take_append, List.take_take, min_self, List.length_take]
  congr 2
  omega

theorem toList_pollPin {e : Engine} (hq : e.queue.WF) (nowUs : U64) (n : Gpio) :
    (e.pollPin nowUs n).queue.WF ∧
      (e.pollPin nowUs n).queue.toList =
        (e.queue.toList ++ (e.dueChange nowUs n).toList).take eventQueueSize := by
  have hfull : e.queue.toList = (e.queue.toList ++ []).take eventQueueSize := by
    rw [List.append_nil, List.take_of_length_le (EventQueue.length_le hq)]
  rw [pollPin_eq_observe, dueChange, Debounce.poll_eq]
  cases e.isTracking n with
  | false => exact ⟨hq, hfull⟩
  | true =>
    cases (e.debounce n).due nowUs with
    | false => exact ⟨hq, hfull⟩
    | true => exact ⟨EventQueue.wf_push hq _, EventQueue.toList_push_take hq _⟩

theorem toList_pollLoop {e : Engine} (nowUs : U64) : ∀ (l : List Gpio) (e' : Engine), l.Nodup → Frame e e' →
    (∀ n ∈ l, e'.debounce n = e.debounce n) → e'.queue.WF →
      (l.foldl (fun e n => e.pollPin nowUs n) e').queue.toList =
        (e'.queue.toList ++ l.filterMap (e.dueChange nowUs)).take eventQueueSize
  | [], e', _, _, _, hq => by
    rw [List.foldl_nil, List.filterMap_nil, List.append_nil,
      List.take_of_length_le (EventQueue.length_le hq)]
  | n :: l, e', hnodup, hf, hd, hq => by
    obtain ⟨hnot, hnodup⟩ := List.nodup_cons.mp hnodup
    obtain ⟨hq', hlist⟩ := toList_pollPin hq nowUs n
    have hrest : ∀ m ∈ l, (e'.pollPin nowUs n).debounce m = e.debounce m := fun m hm => by
      have hne : m ≠ n := fun h => hnot (h ▸ hm)
      rw [← hd m (List.mem_cons_of_mem n hm), pollPin_eq_observe]
      split_ifs
      · rw [debounce_observe, Function.update_of_ne hne]
      · rfl
    have hhead : e'.dueChange nowUs n = e.dueChange nowUs n := by
      rw [dueChange, dueChange, hf.isTracking, hd n List.mem_cons_self]
    rw [List.foldl_cons, toList_pollLoop nowUs l _ hnodup (hf.trans (e'.frame_pollPin nowUs n)) hrest hq',
      hlist, take_take_append, List.append_assoc, hhead]
    cases h : e.dueChange nowUs n with
    | none => rw [List.filterMap_cons_none h, Option.toList_none, List.nil_append]
    | some ev => rw [List.filterMap_cons_some h, Option.toList_some, List.singleton_append]

theorem toList_pollTask {e : Engine} (hq : e.queue.WF) (nowUs : U64) :
    (e.pollTask nowUs).queue.toList = (e.queue.toList ++ e.dueChanges nowUs).take eventQueueSize := by
  have hloop := toList_pollLoop nowUs (List.finRange gpioCount) e (List.nodup_finRange _) (Frame.refl e)
    (fun _ _ => rfl) hq
  rw [pollTask]
  split_ifs <;> exact hloop

/-- A settle makes nothing due. -/
theorem dueChanges_finishSettle {published : PinConfig} {e : Engine} (h : Rep published e) (inputs : U32)
    (nowUs : U64) : (e.finishSettle inputs).dueChanges nowUs = e.dueChanges nowUs := by
  refine List.filterMap_congr fun n _ => ?_
  have hdeb := congrArg Prod.fst (e.pinView_finishSettle inputs n)
  rw [dueChange, dueChange, isTracking_finishSettle,
    show (e.finishSettle inputs).debounce n = _ from hdeb]
  cases hset : hasBit e.settling n with
  | true =>
    have hnot : e.isTracking n = false := by
      rw [Bool.eq_false_iff, Ne, h.isTracking_iff, hset]
      simp
    simp [hnot, Debounce.due, Debounce.reset]
  | false =>
    have hsame : e.isTracking n = modeIsInput (e.config.mode n) := by
      rw [Bool.eq_iff_iff, h.isTracking_iff, hset]
      simp
    rw [hsame]
    rfl

end Engine

namespace Device
open Engine

/-- The queue after the changes that fall due in a task call, as far as there is room for them. -/
def dueQueue (x : Device × Op) : List EdgeEvent :=
  match x.2 with
  | .task nowUs _ => (x.1.engine.queue.toList ++ x.1.engine.dueChanges nowUs).take eventQueueSize
  | _ => []

/-- What falls due in a task call started, pin by pin, in order, and not before what is queued. -/
def DueInOrder (x : Device × Op) : Prop := StartOrder (dueQueue x)

instance (x : Device × Op) : Decidable (DueInOrder x) := inferInstanceAs (Decidable (StartOrder _))

theorem toList_task {d : Device} (h : d.Inv) (nowUs : U64) (inputs : U32) :
    (d.step (.task nowUs inputs)).engine.queue.toList =
      (d.engine.queue.toList ++ d.engine.dueChanges nowUs).take eventQueueSize := by
  rw [step, task_eq]
  cases d.engine.settles nowUs with
  | false => exact toList_pollTask h.toRep.queue nowUs
  | true =>
    rw [if_pos rfl, toList_pollTask (h.toRep.finishSettle inputs).queue, dueChanges_finishSettle h.toRep,
      finishSettle_eq]

/-- The queue is in the order of the starts, and nothing in it started after `t`. -/
def OrderedBy (t : U64) (e : Engine) : Prop :=
  StartOrder e.queue.toList ∧ ∀ ev ∈ e.queue.toList, ev.startUs.toNat ≤ t.toNat

theorem orderedBy_edge {t : U64} {e : Engine} (h : OrderedBy t e) (gpio : U8) (raw : Bool) :
    OrderedBy t (e.onEdge gpio raw t) := by
  unfold Engine.onEdge
  split_ifs with hlt ht
  · rw [edgeAt_eq_observe]
    have hstart := ((e.debounce ⟨gpio.toNat, hlt⟩).lastChangeUs_edge raw t).2
    rcases hr : (e.debounce ⟨gpio.toNat, hlt⟩).edge raw t with ⟨d, _ | startUs⟩
    · exact h
    · rw [hr] at hstart
      obtain rfl := hstart startUs rfl
      have hpush : ∀ ev : EdgeEvent, (e.queue.push ev).toList = e.queue.toList ++ [ev] ∨
          (e.queue.push ev).toList = e.queue.toList := fun ev => by
        rw [EventQueue.toList_push]
        split_ifs
        · exact Or.inl rfl
        · exact Or.inr rfl
      have hnew := hpush ⟨⟨gpio.toNat, hlt⟩, d.confirmed, startUs⟩
      unfold OrderedBy
      rcases hnew with hnew | hnew
      · rw [show (e.observe ⟨gpio.toNat, hlt⟩ (d, some startUs)).queue.toList = _ from hnew, StartOrder,
          List.pairwise_append]
        refine ⟨⟨h.1, List.pairwise_singleton _ _, fun a ha b hb => ?_⟩, fun ev hev => ?_⟩
        · rw [List.mem_singleton.mp hb]
          exact h.2 a ha
        · rcases List.mem_append.mp hev with hev | hev
          · exact h.2 ev hev
          · rw [List.mem_singleton.mp hev]
      · rw [show (e.observe ⟨gpio.toNat, hlt⟩ (d, some startUs)).queue.toList = _ from hnew]
        exact h
  · exact h
  · exact h

theorem orderedBy_resync {t : U64} {e : Engine} (h : OrderedBy t e) (word : U32) :
    OrderedBy t (e.resync word t) := by
  refine Lib.foldl_preserves (fun e n he => ?_) _ h
  unfold resyncPin
  split_ifs
  · exact orderedBy_edge he _ _
  · exact he

/-- A queued event was confirmed. -/
theorem queued_confirmed {d : Device} (h : d.Delivered) {ev : EdgeEvent} (hev : ev ∈ d.engine.queue.toList) :
    ∃ c ∈ d.engine.history, c.event = ev := by
  obtain ⟨chunks, -, hlaw⟩ := h
  have hkept : ev ∈ kept d.engine.history := by
    rw [← hlaw]
    exact List.mem_append_right _ hev
  obtain ⟨c, hc, rfl⟩ := List.mem_map.mp hkept
  exact ⟨c, (List.mem_filter.mp hc).1, rfl⟩

/-- One operation keeps the order of the queue exactly when what falls due is in order. -/
theorem startOrder_step {d : Device} (h : d.Inv) {op : Op} (hby : ∀ t ∈ op.nowUs, OrderedBy t d.engine)
    (hd : StartOrder d.engine.queue.toList) :
    StartOrder (d.step op).engine.queue.toList ↔ DueInOrder (d, op) := by
  cases op with
  | onEdge gpio raw nowUs => exact iff_of_true (orderedBy_edge (hby nowUs rfl) gpio raw).1 List.Pairwise.nil
  | resync word nowUs => exact iff_of_true (orderedBy_resync (hby nowUs rfl) word).1 List.Pairwise.nil
  | task nowUs inputs => rw [toList_task h, DueInOrder, dueQueue]
  | setPinConfig payload nowUs =>
    refine iff_of_true ?_ List.Pairwise.nil
    rcases d.engine.setPinConfig_cases payload nowUs with ⟨_, heq⟩ | ⟨next, _, ha⟩
    · rw [step, heq]
      exact hd
    · rw [step, ha.queue]
      exact hd
  | output payload =>
    refine iff_of_true ?_ List.Pairwise.nil
    simp only [step, Engine.output]
    split <;> exact hd
  | usbReset =>
    refine iff_of_true ?_ List.Pairwise.nil
    simp only [step, Engine.usbReset]
    split_ifs <;> exact hd
  | getStatus nowUs => exact iff_of_true hd List.Pairwise.nil
  | getDeviceInfo => exact iff_of_true hd List.Pairwise.nil
  | getPinConfig => exact iff_of_true hd List.Pairwise.nil
  | send nowUs accepted =>
    refine iff_of_true ?_ List.Pairwise.nil
    rcases d.committed_send nowUs accepted with ⟨_, he⟩ | ⟨_, he⟩
    · rw [he, toList_handOver]
      exact List.Pairwise.sublist (List.drop_sublist _ _) hd
    · rw [he]
      exact hd

/-- Before a call of a run in time, nothing queued started later than that call. -/
theorem orderedBy_run {info : DeviceInfo} {startUs : U64} {ops : List Op} {op : Op}
    (hord : InTime (ops ++ [op]))
    (hd : StartOrder (Lib.run step (start info startUs) ops).engine.queue.toList) :
    ∀ t ∈ op.nowUs, OrderedBy t (Lib.run step (start info startUs) ops).engine := by
  intro t ht
  refine ⟨hd, fun ev hev => ?_⟩
  obtain ⟨c, hc, rfl⟩ := queued_confirmed (events_delivered_once info startUs ops).1 hev
  exact (heldBy_run info startUs (hord.by_last ht)).events c hc

/-- The queue stays in order exactly in the runs whose task calls find what falls due in order. -/
theorem startOrder_run (info : DeviceInfo) (startUs : U64) (ops : List Op) (hord : InTime ops) :
    (∀ early, early <+: ops → StartOrder (Lib.run step (start info startUs) early).engine.queue.toList) ↔
      ∀ x ∈ Lib.steps step (start info startUs) ops, DueInOrder x := by
  induction ops using List.reverseRecOn with
  | nil =>
    refine iff_of_true (fun early hearly => ?_) fun x hx => absurd hx List.not_mem_nil
    rw [List.prefix_nil.mp hearly, Lib.run_nil, start, init_eq]
    exact List.Pairwise.nil
  | append_singleton ops op ih =>
    have hinv := inv_run info startUs ops
    have hiff := ih hord.left
    rw [Lib.steps_concat]
    constructor
    · intro hall x hx
      have hnow := hall ops (List.prefix_append _ _)
      rcases List.mem_append.mp hx with hx | hx
      · exact hiff.mp (fun early hearly => hall early (hearly.trans (List.prefix_append _ _))) x hx
      · obtain rfl := List.mem_singleton.mp hx
        rw [← startOrder_step hinv (orderedBy_run hord hnow) hnow]
        simpa using hall (ops ++ [op]) (List.prefix_refl _)
    · intro hdue early hearly
      have hearlier := hiff.mpr fun x hx => hdue x (List.mem_append_left _ hx)
      have hnow := hearlier ops (List.prefix_refl _)
      rcases List.prefix_concat_iff.mp hearly with rfl | hearly
      · rw [Lib.run_append, Lib.run_cons, Lib.run_nil, startOrder_step hinv (orderedBy_run hord hnow) hnow]
        exact hdue _ (List.mem_append_right _ (List.mem_singleton_self _))
      · exact hearlier early hearly

/-- A report that was handed over comes from a send attempt of the run. -/
theorem mem_sent_run {info : DeviceInfo} {startUs : U64} {ops : List Op} {r : Sent}
    (hr : r ∈ (Lib.run step (start info startUs) ops).sent) :
    ∃ early op, early ++ [op] <+: ops ∧ (Lib.run step (start info startUs) early).committed op = some r := by
  induction ops using List.reverseRecOn with
  | nil => exact absurd hr List.not_mem_nil
  | append_singleton ops op ih =>
    rw [Lib.run_append, Lib.run_cons, Lib.run_nil, sent_step, List.mem_append, Option.mem_toList] at hr
    rcases hr with hr | hr
    · obtain ⟨early, op', hearly, hc⟩ := ih hr
      exact ⟨early, op', hearly.trans (List.prefix_append _ _), hc⟩
    · exact ⟨ops, op, List.prefix_refl _, hr⟩

/-- The starts a report says are in the order of the starts of its events. -/
theorem startsOf_report {e : Engine} {nowUs : U64}
    (hby : ∀ ev ∈ e.queue.toList, ev.startUs.toNat ≤ nowUs.toNat)
    (ho : StartOrder e.queue.toList) :
    (startsOf (e.report nowUs)).Pairwise fun a b => a.toNat ≤ b.toNat := by
  have hstarts : startsOf (e.report nowUs) =
      e.carried.map fun ev => nowUs - (eventAge nowUs ev.startUs).setWidth 64 := by
    simp only [startsOf, report, List.map_map]
    rfl
  have hcarried : ∀ ev ∈ e.carried, ev.startUs.toNat ≤ nowUs.toNat :=
    fun ev hev => hby ev (List.mem_of_mem_take hev)
  rw [hstarts, List.pairwise_map]
  refine List.Pairwise.imp_of_mem (fun ha hb hab => ?_) (List.Pairwise.sublist (List.take_sublist _ _) ho)
  rw [toNat_sub_eventAge (hcarried _ ha), toNat_sub_eventAge (hcarried _ hb)]
  omega

/-- In calls whose times do not go back, the queue is always in the order of the starts exactly when in each
    task call the queued events and the changes that fall due, taken pin by pin, are in that order; and then
    so are the events of every report. -/
theorem reports_in_start_order (info : DeviceInfo) (startUs : U64) (ops : List Op) (hord : InTime ops) :
    ((∀ early, early <+: ops → StartOrder (Lib.run step (start info startUs) early).engine.queue.toList) ↔
      ∀ x ∈ Lib.steps step (start info startUs) ops, DueInOrder x) ∧
    ((∀ x ∈ Lib.steps step (start info startUs) ops, DueInOrder x) →
      ∀ r ∈ (Lib.run step (start info startUs) ops).sent,
        (startsOf r.status).Pairwise fun a b => a.toNat ≤ b.toNat) := by
  refine ⟨startOrder_run info startUs ops hord, fun hdue r hr => ?_⟩
  obtain ⟨early, op, hearly, hc⟩ := mem_sent_run hr
  obtain ⟨nowUs, accepted, rfl, rfl, -, -⟩ := committed_eq_some hc
  have horder := (startOrder_run info startUs ops hord).mpr hdue
    early ((List.prefix_append _ _).trans hearly)
  obtain ⟨rest, rfl⟩ := hearly
  obtain ⟨ho, hby⟩ := orderedBy_run hord.left horder nowUs rfl
  exact startsOf_report hby ho

/-- GPIO1 and then GPIO0 fall, 300 µs apart; both changes are due when the engine is next polled. -/
def twoFalls (first second : U8) : List Op :=
  [.task 1000 3, .onEdge first false 2100, .onEdge second false 2400, .task 22000 0, .task 23000 0,
    .send 23000 true]

/-- When the lower GPIO falls first, the report has the events in the order of their starts. -/
theorem reports_in_start_order_sample :
    (Lib.run step (start (sampleInfo 3) 0) (twoFalls 0 1)).sent.map (fun r => startsOf r.status) =
      [[2100, 2400]] ∧
      ∀ r ∈ (Lib.run step (start (sampleInfo 3) 0) (twoFalls 0 1)).sent,
        (startsOf r.status).Pairwise fun a b => a.toNat ≤ b.toNat :=
  ⟨by decide +kernel,
    (reports_in_start_order (sampleInfo 3) 0 (twoFalls 0 1) (by decide +kernel)).2 (by decide +kernel)⟩

/-- When it falls last, the later change comes first. -/
theorem later_start_first : ¬ ∀ (info : DeviceInfo) (startUs : U64) (ops : List Op), InTime ops →
    ∀ r ∈ (Lib.run step (start info startUs) ops).sent,
      (startsOf r.status).Pairwise fun a b => a.toNat ≤ b.toNat := by
  intro h
  have hsent : (Lib.run step (start (sampleInfo 3) 0) (twoFalls 1 0)).sent.map (fun r => startsOf r.status) =
      [[2400, 2100]] := by decide +kernel
  obtain ⟨r, hr, hstarts⟩ := List.mem_map.mp (hsent ▸ List.mem_singleton_self [2400, 2100])
  have hpairs := h (sampleInfo 3) 0 (twoFalls 1 0) (by decide +kernel) r hr
  rw [hstarts] at hpairs
  exact absurd hpairs (by decide)

end Device

end Hidpin.Firmware
