import Hidpin.Firmware.Machine

/-! Delivery of edge events. `Confirmed` entries record every call of `push_event`; the law kept by
    every operation is that the events handed over, followed by the queue, are the recorded ones that
    were confirmed below the capacity of the queue. -/

namespace Hidpin.Firmware

/-- An event confirmed while the queue was full. -/
def Confirmed.dropped (c : Confirmed) : Bool := decide (c.queued = eventQueueSize)

/-- The recorded events that found room in the queue, in the order of confirmation. -/
def kept (history : List Confirmed) : List EdgeEvent :=
  (history.filter fun c => !c.dropped).map Confirmed.event

@[simp] theorem kept_nil : kept [] = [] := rfl

@[simp] theorem kept_append (h h' : List Confirmed) : kept (h ++ h') = kept h ++ kept h' := by
  simp [kept]

namespace Engine

/-- Events were confirmed, and the queue took those it had room for. -/
def Grows (e e' : Engine) : Prop :=
  ∃ new, e'.history = e.history ++ new ∧ e'.queue.toList = e.queue.toList ++ kept new ∧
    e'.queue.overflowed = (e.queue.overflowed || new.any Confirmed.dropped) ∧
    (new.any Confirmed.dropped = true → e'.queue.toList ≠ [])

theorem Grows.of_eq {e e' : Engine} (hh : e'.history = e.history) (hq : e'.queue = e.queue) :
    Grows e e' := ⟨[], by simp [hh], by simp [hq], by simp [hq], by simp⟩

theorem Grows.refl (e : Engine) : Grows e e := Grows.of_eq rfl rfl

theorem Grows.trans {e e' e'' : Engine} (h : Grows e e') (h' : Grows e' e'') : Grows e e'' := by
  obtain ⟨new, hh, hq, ho, hne⟩ := h
  obtain ⟨new', hh', hq', ho', hne'⟩ := h'
  refine ⟨new ++ new', ?_, ?_, ?_, fun hdrop => ?_⟩
  · rw [hh', hh, List.append_assoc]
  · rw [hq', hq, kept_append, List.append_assoc]
  · rw [ho', ho, List.any_append, Bool.or_assoc]
  · rw [List.any_append, Bool.or_eq_true] at hdrop
    rcases hdrop with h | h
    · rw [hq']
      exact List.append_ne_nil_of_left_ne_nil (hne h) _
    · exact hne' h

theorem grows_pushEvent {e : Engine} (hq : e.queue.WF) (n : Gpio) (level : Bool) (startUs : U64) :
    Grows e (e.pushEvent n level startUs) := by
  have hle := EventQueue.length_le hq
  have hlen := e.queue.length_toList
  have hiff : (e.queue.toList.length ≥ eventQueueSize) ↔ e.queue.count.toNat = eventQueueSize := by
    omega
  refine ⟨[⟨⟨n, level, startUs⟩, e.queue.count.toNat⟩], rfl, ?_, ?_, fun _ => ?_⟩
  · simp only [pushEvent, EventQueue.toList_push, kept, Confirmed.dropped]
    by_cases hlt : e.queue.toList.length < eventQueueSize
    · have hne : ¬ e.queue.count.toNat = eventQueueSize := by omega
      rw [if_pos hlt]
      simp [hne]
    · have heq : e.queue.count.toNat = eventQueueSize := by omega
      rw [if_neg hlt]
      simp [heq]
  · simp only [pushEvent, EventQueue.overflowed_push, List.any_cons, List.any_nil, Bool.or_false,
      Confirmed.dropped, decide_eq_decide.mpr hiff]
  · simp only [pushEvent, EventQueue.toList_push]
    split_ifs with hlt
    · simp
    · intro hnil
      rw [hnil] at hlt
      exact hlt (by decide)

theorem grows_observe {e : Engine} (hq : e.queue.WF) (n : Gpio) (r : Debounce × Option U64) :
    Grows e (e.observe n r) := by
  rcases r with ⟨d, _ | start⟩
  · exact Grows.of_eq rfl rfl
  · exact grows_pushEvent (e := { e with debounce := Function.update e.debounce n d }) hq n _ start

/-- What the pin operations of a run do to the queue, started from `e₀`. -/
def GrowsFrom (c : PinConfig) (e₀ e : Engine) : Prop := e.Inv c ∧ Grows e₀ e

theorem GrowsFrom.observe {c : PinConfig} {e₀ : Engine} (e : Engine) (n : Gpio)
    (r : Debounce × Option U64) (h : GrowsFrom c e₀ e) (_ : e.isTracking n = true)
    (hr : (e.debounce n).Change r) : GrowsFrom c e₀ (e.observe n r) :=
  ⟨h.1.observe n hr, h.2.trans (grows_observe h.1.queue n r)⟩

theorem grows_pollTask {c : PinConfig} {e : Engine} (h : e.Inv c) (nowUs : U64) :
    Grows e (e.pollTask nowUs) := by
  have hpoll : GrowsFrom c e (e.pollPins nowUs) :=
    pollPins_preserves (P := GrowsFrom c e) (fun _ he => he.1.debounce) GrowsFrom.observe
      ⟨h, Grows.refl e⟩ nowUs
  unfold pollTask
  split_ifs
  · exact hpoll.2.trans (Grows.of_eq rfl rfl)
  · exact hpoll.2

theorem grows_setPinConfig (e : Engine) (payload : List U8) (nowUs : U64) :
    Grows e (e.setPinConfig payload nowUs) := by
  rcases e.setPinConfig_cases payload nowUs with ⟨_, heq⟩ | ⟨next, _, ha⟩
  · rw [heq]; exact Grows.of_eq rfl rfl
  · exact Grows.of_eq ha.history ha.queue

end Engine

namespace Device
open Engine

/-- Every operation but a send only lets the queue grow. -/
theorem grows_step {d : Device} (h : d.Inv) {op : Op} (hop : ∀ nowUs accepted, op ≠ .send nowUs accepted) :
    Grows d.engine (d.step op).engine := by
  have h0 : GrowsFrom d.published d.engine d.engine := ⟨h, Grows.refl _⟩
  cases op with
  | onEdge gpio raw nowUs => exact (onEdge_preserves GrowsFrom.observe h0 gpio raw nowUs).2
  | resync raw nowUs => exact (resync_preserves GrowsFrom.observe h0 raw nowUs).2
  | task nowUs inputs =>
    rw [step, task_eq]
    cases d.engine.settles nowUs
    · exact grows_pollTask h nowUs
    · refine Grows.trans ?_ (grows_pollTask (h.finishSettle inputs) nowUs)
      rw [finishSettle_eq]
      exact Grows.of_eq rfl rfl
  | setPinConfig payload nowUs => exact grows_setPinConfig _ payload nowUs
  | output payload =>
    simp only [step, output]
    split <;> exact Grows.of_eq rfl rfl
  | usbReset =>
    simp only [step, usbReset]
    split_ifs <;> exact Grows.of_eq rfl rfl
  | getStatus nowUs => exact Grows.refl _
  | getDeviceInfo => exact Grows.refl _
  | getPinConfig => exact Grows.refl _
  | send nowUs accepted => exact absurd rfl (hop nowUs accepted)

/-- A send attempt: a report was handed over, or the endpoint keeps its old contents. -/
theorem committed_send (d : Device) (nowUs : U64) (accepted : Bool) :
    (d.committed (.send nowUs accepted) = some ⟨nowUs, d.engine.report nowUs, d.published⟩ ∧
      (d.step (.send nowUs accepted)).engine = d.engine.handOver nowUs) ∨
    (d.committed (.send nowUs accepted) = none ∧
      (d.step (.send nowUs accepted)).engine = d.engine.stage) := by
  simp only [committed, step, sendStatusReport_eq]
  split_ifs
  · exact Or.inl ⟨rfl, rfl⟩
  · exact Or.inr ⟨rfl, rfl⟩

/-- Only a send attempt hands a report over. -/
theorem committed_eq_some {d : Device} {op : Op} {r : Sent} (h : d.committed op = some r) :
    ∃ nowUs accepted, op = .send nowUs accepted ∧ r = ⟨nowUs, d.engine.report nowUs, d.published⟩ ∧
      d.engine.reportReady = true ∧ (d.step op).engine = d.engine.handOver nowUs := by
  cases op with
  | send nowUs accepted =>
    rcases d.committed_send nowUs accepted with ⟨hc, he⟩ | ⟨hc, _⟩
    · refine ⟨nowUs, accepted, rfl, Option.some.inj (h.symm.trans hc), ?_, he⟩
      by_contra hr
      simp [committed, sendStatusReport_eq, hr] at h
    · rw [hc] at h; exact absurd h (by simp)
  | _ => exact absurd h (by simp [committed])

/-- The events handed over and those still queued are the recorded ones that found room. -/
def Delivered (d : Device) : Prop :=
  ∃ chunks : List (List EdgeEvent),
    List.Forall₂ (fun (r : Sent) chunk => r.status.events = chunk.map (eventOf r.nowUs)) d.sent chunks ∧
    chunks.flatten ++ d.engine.queue.toList = kept d.engine.history

/-- The queue after a report took its events. -/
theorem toList_handOver (e : Engine) (nowUs : U64) :
    (e.handOver nowUs).queue.toList = e.queue.toList.drop eventsPerReport := by
  have hlen : e.carried.length ≤ 7 := by simp [carried]
  have hmod : (BitVec.ofNat 8 e.carried.length).toNat = e.carried.length := by
    rw [BitVec.toNat_ofNat, Nat.mod_eq_of_lt (by omega)]
  have h := EventQueue.toList_drop e.queue (BitVec.ofNat 8 e.carried.length)
  rw [hmod] at h
  refine Eq.trans h ?_
  simp only [carried, List.length_take]
  rcases le_total eventsPerReport e.queue.toList.length with hle | hle
  · rw [min_eq_left hle]
  · rw [min_eq_right hle, List.drop_of_length_le (le_refl _), List.drop_of_length_le hle]

theorem delivered_step (d : Device) (op : Op) (h : d.Inv ∧ d.Delivered) :
    (d.step op).Inv ∧ (d.step op).Delivered := by
  obtain ⟨hinv, chunks, hchunks, hlaw⟩ := h
  refine ⟨step_inv d op hinv, ?_⟩
  have hsent := sent_step d op
  cases hc : d.committed op with
  | some r =>
    obtain ⟨nowUs, accepted, rfl, rfl, _, he⟩ := committed_eq_some hc
    rw [hc] at hsent
    refine ⟨chunks ++ [d.engine.carried], ?_, ?_⟩
    · rw [hsent]
      exact List.rel_append hchunks (List.Forall₂.cons rfl List.Forall₂.nil)
    · rw [he, toList_handOver, List.flatten_append, List.flatten_singleton, List.append_assoc, carried,
        List.take_append_drop]
      exact hlaw
  | none =>
    rw [hc, Option.toList_none, List.append_nil] at hsent
    by_cases hop : ∀ nowUs accepted, op ≠ .send nowUs accepted
    · obtain ⟨new, hh, hq, _, _⟩ := grows_step hinv hop
      refine ⟨chunks, hsent ▸ hchunks, ?_⟩
      rw [hq, hh, kept_append, ← List.append_assoc, hlaw]
    · simp only [not_forall, not_not] at hop
      obtain ⟨nowUs, accepted, rfl⟩ := hop
      rcases d.committed_send nowUs accepted with ⟨hs, _⟩ | ⟨_, he⟩
      · rw [hc] at hs; exact absurd hs (by simp)
      · exact ⟨chunks, hsent ▸ hchunks, by rw [he]; exact hlaw⟩

/-! ### The flags -/

/-- An operation that hands a report with OVERFLOW over. -/
def reportsOverflow (x : Device × Op) : Bool :=
  (x.1.committed x.2).any fun r => hasFlag r.status.flags flagOverflow

/-- An operation that confirms an event while the queue is full. -/
def dropsEvent (x : Device × Op) : Bool :=
  ((x.1.step x.2).engine.history.drop x.1.engine.history.length).any Confirmed.dropped

theorem hasFlag_overflow (e : Engine) (nowUs : U64) :
    hasFlag (e.report nowUs).flags flagOverflow = (e.drains && e.queue.overflowed) := by
  cases hd : e.drains <;> cases ho : e.queue.overflowed <;> simp only [report, hd, ho] <;> decide

theorem hasFlag_moreEvents (e : Engine) (nowUs : U64) :
    hasFlag (e.report nowUs).flags flagMoreEvents = !e.drains := by
  cases hd : e.drains <;> cases ho : e.queue.overflowed <;> simp only [report, hd, ho] <;> decide

theorem dropsEvent_of_grows {d : Device} {op : Op} (h : Grows d.engine (d.step op).engine) :
    (d.step op).engine.queue.overflowed = (d.engine.queue.overflowed || dropsEvent (d, op)) := by
  obtain ⟨new, hh, _, ho, _⟩ := h
  rw [ho, dropsEvent, hh, List.drop_left]

/-- The latch says whether an event was dropped since the last report with OVERFLOW. -/
theorem overflowed_run (info : DeviceInfo) (nowUs : U64) (ops : List Op) :
    (Lib.run step (start info nowUs) ops).engine.queue.overflowed =
      (Lib.since reportsOverflow (Lib.steps step (start info nowUs) ops)).any dropsEvent := by
  induction ops using List.reverseRecOn with
  | nil => simp [start, init_eq, blank, Lib.steps]
  | append_singleton ops op ih =>
    have hinv := inv_run info nowUs ops
    rw [Lib.run_append, Lib.steps_concat, Lib.since_concat]
    generalize Lib.run step (start info nowUs) ops = d at ih hinv ⊢
    rw [Lib.run_cons, Lib.run_nil]
    cases hc : d.committed op with
    | some r =>
      obtain ⟨t, accepted, rfl, rfl, _, he⟩ := committed_eq_some hc
      have hdrop : dropsEvent (d, .send t accepted) = false := by
        simp only [dropsEvent, he, handOver, List.drop_length, List.any_nil]
      have hov : reportsOverflow (d, .send t accepted) = (d.engine.drains && d.engine.queue.overflowed) := by
        simp only [reportsOverflow, hc, Option.any_some, hasFlag_overflow]
      have hq : (d.step (.send t accepted)).engine.queue.overflowed =
          (d.engine.queue.overflowed && !d.engine.drains) := by rw [he]; rfl
      rw [hq, hov]
      cases hd : d.engine.drains <;> cases ho : d.engine.queue.overflowed <;>
        simp [← ih, ho, hdrop]
    | none =>
      have hov : reportsOverflow (d, op) = false := by simp [reportsOverflow, hc]
      have hgrow : Grows d.engine (d.step op).engine := by
        by_cases hop : ∀ t accepted, op ≠ .send t accepted
        · exact grows_step hinv hop
        · simp only [not_forall, not_not] at hop
          obtain ⟨t, accepted, rfl⟩ := hop
          rcases d.committed_send t accepted with ⟨hs, _⟩ | ⟨_, he⟩
          · rw [hc] at hs; exact absurd hs (by simp)
          · rw [he]; exact Grows.of_eq rfl rfl
      rw [hov, if_neg (by simp), List.any_append, ← ih, dropsEvent_of_grows hgrow]
      simp

/-- The level bits of the monitored pins in a report that empties the queue. -/
theorem levels_of_drains {d : Device} (h : d.Inv) (hd : d.engine.drains = true) (nowUs : U64) {n : Gpio}
    (hn : hasBit d.engine.monitored n = true) :
    hasBit (d.engine.report nowUs).levels n = (d.engine.debounce n).confirmed := by
  have hout := h.not_output hn
  simp [report, reflected, hd, hn, hout]

/-- Every confirmed event that found room is handed over exactly once and in order, whatever sends
    fail, and every report's flags and levels say what is left. -/
theorem events_delivered_once (info : DeviceInfo) (startUs : U64) (ops : List Op) :
    (Lib.run step (start info startUs) ops).Delivered ∧
    ∀ op r, (Lib.run step (start info startUs) ops).committed op = some r →
      let d := Lib.run step (start info startUs) ops
      let left := (d.step op).engine.queue.toList
      r.status.events.length = min eventsPerReport d.engine.queue.toList.length ∧
      (hasFlag r.status.flags flagMoreEvents = true ↔ left ≠ []) ∧
      (hasFlag r.status.flags flagOverflow = true ↔ left = [] ∧
        ∃ x ∈ Lib.since reportsOverflow (Lib.steps step (start info startUs) ops),
          dropsEvent x = true) ∧
      (left = [] → ∀ n, hasBit r.status.monitored n = true →
        hasBit r.status.levels n = (d.engine.debounce n).confirmed) := by
  have hrun : (Lib.run step (start info startUs) ops).Inv ∧
      (Lib.run step (start info startUs) ops).Delivered :=
    Lib.run_preserves delivered_step ops
      ⟨Engine.inv_init info startUs, [], List.Forall₂.nil, by simp [start, init_eq, blank]⟩
  refine ⟨hrun.2, fun op r hc => ?_⟩
  have hover := overflowed_run info startUs ops
  generalize Lib.run step (start info startUs) ops = d at *
  obtain ⟨t, accepted, rfl, rfl, _, he⟩ := committed_eq_some hc
  have hleft : (d.step (.send t accepted)).engine.queue.toList =
      d.engine.queue.toList.drop eventsPerReport := by rw [he, toList_handOver]
  have hdrains : (d.step (.send t accepted)).engine.queue.toList = [] ↔ d.engine.drains = true := by
    rw [hleft, List.drop_eq_nil_iff, drains, decide_eq_true_iff]
  refine ⟨by simp [report, carried], ?_, ?_, fun hnil n hn => ?_⟩
  · rw [hasFlag_moreEvents, Ne, hdrains]; simp
  · rw [hasFlag_overflow, hdrains, Bool.and_eq_true, hover, List.any_eq_true]
  · exact levels_of_drains hrun.1 (hdrains.mp hnil) t hn

end Device

end Hidpin.Firmware
