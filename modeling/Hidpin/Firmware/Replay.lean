import Hidpin.Firmware.Delivery
import Hidpin.Lib.Replay

/-! Status reports replay: the levels of a report are the levels of the one before it with the events
    applied. Three copies of a level have to agree for that: the confirmed one, the one last reported
    with the queued events applied, and the bit of the report sent last. A settle writes the first two
    anew and leaves the events of the pins it reads in the queue; `staleEvents` is the send after which
    such events contradict the reading. -/

namespace Hidpin.Firmware

/-- The level of a pin after queued events, started from `b`. -/
abbrev replayQueue (events : List EdgeEvent) (n : Gpio) (b : Bool) : Bool :=
  Lib.replay EdgeEvent.gpio EdgeEvent.level events n b

/-- The level of the last event of a pin in a report. -/
def lastLevel (events : List StatusEvent) (n : Gpio) : Option Bool :=
  Lib.lastOf StatusEvent.gpio StatusEvent.level events n.toU8

/-- The levels of `r'` are those of `r` with the events of `r'` applied, for the pins monitored in
    both, unless `r'` says that this may not be. -/
def Replays (r r' : Status) : Prop :=
  hasFlag r'.flags flagOverflow = false → hasFlag r'.reason reasonConfigChanged = false →
    ∀ n, hasBit r.monitored n = true → hasBit r'.monitored n = true →
      hasBit r'.levels n = (lastLevel r'.events n).getD (hasBit r.levels n)

instance (r r' : Status) : Decidable (Replays r r') :=
  inferInstanceAs (Decidable (_ → _ → ∀ _, _))

theorem lastLevel_map (nowUs : U64) (events : List EdgeEvent) (n : Gpio) (b : Bool) :
    (lastLevel (events.map (Engine.eventOf nowUs)) n).getD b = replayQueue events n b := by
  rw [lastLevel, ← Lib.replay_eq_lastOf, Lib.replay_map]
  simp only [Lib.replay, Engine.eventOf, Function.comp_def, toU8_injective.eq_iff]

theorem hasBit_replay (n : Gpio) : ∀ (events : List EdgeEvent) (r : U32),
    hasBit (events.foldl (fun r ev => withBit r ev.gpio ev.level) r) n =
      replayQueue events n (hasBit r n)
  | [], _ => rfl
  | ev :: events, r => by
      rw [List.foldl_cons, hasBit_replay n events, hasBit_withBit]
      simp only [Lib.replay, List.foldl_cons, eq_comm]

/-- The copies of a level agree; `sent` are the reports handed over. Until the very first settle
    nothing is monitored. -/
structure Engine.Consistent (c : PinConfig) (sent : List Sent) (e : Engine) : Prop where
  inv : e.Inv c
  first : e.settleActive = true → e.configChanged = false →
    e.queue.toList = [] ∧ (∀ n, hasBit e.monitored n = false) ∧
      (∀ r ∈ sent, ∀ n, hasBit r.status.monitored n = false) ∧
      ∀ n, modeIsInput (e.config.mode n) = true → hasBit e.settling n = true
  law : hasFlag e.pendingReasons reasonConfigChanged = false → e.queue.overflowed = false →
    ∀ n, hasBit e.monitored n = true →
      replayQueue e.queue.toList n (hasBit e.reportedLevels n) = (e.debounce n).confirmed
  last : hasFlag e.pendingReasons reasonConfigChanged = false → ∀ r ∈ sent.getLast?,
    ∀ n, hasBit r.status.monitored n = true → hasBit e.monitored n = true →
      hasBit e.reportedLevels n = hasBit r.status.levels n

namespace Engine.Consistent
variable {c : PinConfig} {sent : List Sent} {e e' : Engine}

theorem congr (h : Consistent c sent e) (hinv : e'.Inv c) (hq : e'.queue = e.queue)
    (hd : e'.debounce = e.debounce) (hm : e'.monitored = e.monitored)
    (hr : e'.reportedLevels = e.reportedLevels) (hs : e'.settling = e.settling)
    (ha : e'.settleActive = e.settleActive) (hcc : e'.configChanged = e.configChanged)
    (hc : e'.config = e.config)
    (hp : hasFlag e'.pendingReasons reasonConfigChanged = hasFlag e.pendingReasons reasonConfigChanged) :
    Consistent c sent e' where
  inv := hinv
  first := by rw [ha, hcc, hq, hm, hc, hs]; exact h.first
  law := by rw [hp, hq, hm, hr, hd]; exact h.law
  last := by rw [hp, hm, hr]; exact h.last

theorem observe (e : Engine) (n : Gpio) (r : Debounce × Option U64) (h : Consistent c sent e)
    (ht : e.isTracking n = true) (hr : (e.debounce n).Change r) : Consistent c sent (e.observe n r) := by
  have hf := frame_observe e n r
  have hmon : hasBit e.monitored n = true := ((isTracking_iff e n).mp ht).1
  refine ⟨h.inv.observe n hr, fun ha hc => ?_, fun hp ho m hm => ?_, ?_⟩
  · rw [hf.settleActive] at ha
    rw [hf.configChanged] at hc
    rw [(h.first ha hc).2.1 n] at hmon
    exact absurd hmon (by decide)
  · rw [hf.pendingReasons] at hp
    rw [hf.monitored] at hm
    rw [hf.reportedLevels, debounce_observe]
    obtain ⟨d, _ | start⟩ := r
    · have hlaw := h.law hp ho m hm
      refine hlaw.trans ?_
      by_cases hmn : m = n
      · subst hmn; simpa using (hr.keep rfl).symm
      · simp [hmn]
    · simp only [Engine.observe, pushEvent, EventQueue.overflowed_push, Bool.or_eq_false_iff,
        decide_eq_false_iff_not, not_le] at ho
      simp only [Engine.observe, pushEvent, EventQueue.toList_push, if_pos ho.2, replayQueue,
        Lib.replay_concat]
      by_cases hmn : n = m
      · subst hmn; simp
      · have hmn' : m ≠ n := fun hc => hmn hc.symm
        simpa [hmn, hmn'] using h.law hp ho.1 m hm
  · rw [hf.pendingReasons, hf.monitored, hf.reportedLevels]
    exact h.last

theorem pollPins (h : Consistent c sent e) (nowUs : U64) : Consistent c sent (e.pollPins nowUs) :=
  pollPins_preserves (fun _ h => h.inv.debounce) observe h nowUs

theorem pollTask (h : Consistent c sent e) (nowUs : U64) : Consistent c sent (e.pollTask nowUs) := by
  have hpoll := h.pollPins nowUs
  have hi := hpoll.inv
  unfold Engine.pollTask
  split_ifs
  · refine hpoll.congr ⟨⟨hi.queue, hi.debounce, hi.valid, hi.monitored, hi.outputs, hi.settling, hi.kept,
      hi.settled⟩, hi.reported⟩ rfl rfl rfl rfl rfl rfl rfl rfl ?_
    rw [hasFlag_or]
    simp [show hasFlag reasonPeriodic reasonConfigChanged = false by decide]
  · exact hpoll

/-- A settle either reports a changed configuration or is the very first one. -/
theorem finishSettle (h : Consistent c sent e) (ha : e.settleActive = true) (inputs : U32) :
    Consistent e.config sent (e.finishSettle inputs) := by
  have hinv := h.inv.finishSettle inputs
  rw [finishSettle_eq] at hinv ⊢
  cases hcc : e.configChanged with
  | true =>
    have hp : hasFlag (e.pendingReasons ||| reasonConfigChanged) reasonConfigChanged = true := by
      rw [hasFlag_or]
      simp [show hasFlag reasonConfigChanged reasonConfigChanged = true by decide]
    simp only [hcc, if_true] at hinv
    exact ⟨hinv, by simp, by simp [hp], by simp [hp]⟩
  | false =>
    obtain ⟨hq, hmon, hsent, hset⟩ := h.first ha hcc
    simp only [hcc, Bool.false_eq_true, if_false] at hinv
    refine ⟨hinv, by simp, fun _ _ n hn => ?_, fun _ r hr n hn => ?_⟩
    · rw [hasBit_inputMask] at hn
      simp [hq, readDebounce, hset n hn, hasBit_readLevels, Debounce.reset, hn]
    · rw [hsent r (List.mem_of_mem_getLast? hr) n] at hn
      exact absurd hn (by decide)

theorem setPinConfig (h : Consistent c sent e) (payload : List U8) (nowUs : U64) :
    Consistent c sent (e.setPinConfig payload nowUs) := by
  have hinv := h.inv.setPinConfig payload nowUs
  rcases e.setPinConfig_cases payload nowUs with ⟨_, heq⟩ | ⟨next, _, happ⟩
  · rw [heq] at hinv ⊢
    exact h.congr hinv rfl rfl rfl rfl rfl rfl rfl rfl rfl
  · refine ⟨hinv, fun ha hcc => ?_, ?_, ?_⟩
    · rw [happ.configChanged, Bool.or_eq_false_iff, decide_eq_false_iff_not, not_ne_iff] at hcc
      rw [happ.settleActive, hcc.2] at ha
      obtain ⟨hq, hmon, hsent, hset⟩ := h.first (by simpa using ha) hcc.1
      refine ⟨by rw [happ.queue, hq], by rw [happ.monitored]; exact hmon, hsent, fun n hn => ?_⟩
      rw [happ.config, hcc.2] at hn
      rw [happ.settling, appliedSettling, hcc.2]
      simp [sameEntry, hset n hn]
    · intro hp ho n hn
      rw [happ.pendingReasons] at hp
      rw [happ.queue] at ho ⊢
      rw [happ.monitored] at hn
      rw [happ.reportedLevels, happ.debounce, h.law hp ho n hn, appliedDebounce]
      split_ifs <;> simp
    · rw [happ.pendingReasons, happ.monitored, happ.reportedLevels]
      exact h.last

theorem output (h : Consistent c sent e) (payload : List U8) :
    Consistent c sent (e.output payload).1 := by
  have hinv := h.inv.output payload
  unfold Engine.output at hinv ⊢
  cases hd : outputDecode payload with
  | none => exact h
  | some mv =>
    simp only [hd] at hinv
    refine h.congr hinv rfl rfl rfl rfl rfl rfl rfl rfl ?_
    rw [hasFlag_or]
    simp [show hasFlag reasonOutputApplied reasonConfigChanged = false by decide]

theorem usbReset (h : Consistent c sent e) : Consistent c sent e.usbReset := by
  have hinv := h.inv.usbReset
  unfold Engine.usbReset at hinv ⊢
  by_cases h0 : outputMask e.config = 0#32
  · rw [if_pos h0]; exact h
  · rw [if_neg h0] at hinv ⊢
    refine h.congr hinv rfl rfl rfl rfl rfl rfl rfl rfl ?_
    rw [hasFlag_or]
    simp [show hasFlag reasonOutputReset reasonConfigChanged = false by decide]

/-- The next report replays the report sent last. -/
theorem replays (h : Consistent c sent e) (nowUs : U64) :
    ∀ r ∈ sent.getLast?, Replays r.status (e.report nowUs) := by
  intro r hr hover hcc n hold hnew
  have hp : hasFlag e.pendingReasons reasonConfigChanged = false := by
    have hreason : hasFlag e.reportReason reasonConfigChanged = false := hcc
    rw [reportReason, hasFlag_or, Bool.or_eq_false_iff] at hreason
    exact hreason.1
  have hmon : hasBit e.monitored n = true := hnew
  have hout : hasBit e.outputs n = false := h.inv.not_output hmon
  rw [report, lastLevel_map, ← h.last hp r hr n hold hmon]
  simp only [hasBit_or, hasBit_and, hout, Bool.and_false, Bool.or_false, reflected, hmon, Bool.and_true]
  cases hd : e.drains with
  | true =>
    rw [Device.hasFlag_overflow, hd, Bool.true_and] at hover
    have hall : e.carried = e.queue.toList := List.take_of_length_le (of_decide_eq_true hd)
    rw [hall, h.law hp hover n hmon]
    simp [hmon]
  | false => simp [hasBit_replay]

/-- Handing the report over keeps the copies equal, unless it leaves stale events. -/
theorem handOver (h : Consistent c sent e) (nowUs : U64)
    (hstale : hasFlag e.pendingReasons reasonConfigChanged = true → e.drains = false →
      e.queue.overflowed = false → ∀ n, hasBit e.monitored n = true →
        replayQueue e.queue.toList n (hasBit e.reportedLevels n) = (e.debounce n).confirmed)
    (published : PinConfig) (hinv : (e.handOver nowUs).Inv c) :
    Consistent c (sent ++ [⟨nowUs, e.report nowUs, published⟩]) (e.handOver nowUs) := by
  have hqueue := Device.toList_handOver e nowUs
  refine ⟨hinv, fun ha hcc => ?_, fun _ ho n hn => ?_, fun _ r hr n hn hmon => ?_⟩
  · obtain ⟨hq, hmon, hsent, hset⟩ := h.first ha hcc
    refine ⟨by rw [hqueue, hq]; rfl, hmon, fun r hr => ?_, hset⟩
    rcases List.mem_append.mp hr with hr | hr
    · exact hsent r hr
    · rw [List.mem_singleton.mp hr]; exact hmon
  · rw [hqueue]
    have hmon : hasBit e.monitored n = true := hn
    have ho' : (e.queue.overflowed && !e.drains) = false := ho
    simp only [Engine.handOver, reflected, hasBit_and, hmon, Bool.and_true]
    cases hd : e.drains with
    | true =>
      have hnil : e.queue.toList.drop eventsPerReport = [] :=
        List.drop_of_length_le (of_decide_eq_true hd)
      simp [hnil, hmon]
    | false =>
      have hov : e.queue.overflowed = false := by simpa [hd] using ho'
      have hlaw : replayQueue e.queue.toList n (hasBit e.reportedLevels n) =
          (e.debounce n).confirmed := by
        cases hp : hasFlag e.pendingReasons reasonConfigChanged
        · exact h.law hp hov n hmon
        · exact hstale hp hd hov n hmon
      rw [← hlaw, ← List.take_append_drop eventsPerReport e.queue.toList, replayQueue, replayQueue,
        Lib.replay_append]
      simp [hasBit_replay, carried]
  · have heq : r = ⟨nowUs, e.report nowUs, published⟩ := by simpa [eq_comm] using hr
    have hm : hasBit e.monitored n = true := hmon
    subst heq
    simp [Engine.handOver, report, h.inv.not_output hm]

end Engine.Consistent

namespace Device
open Engine

/-- A send that reports a changed configuration but leaves events queued that contradict the level of
    a monitored pin; no event is known to be lost. -/
def staleEvents (d : Device) : Op → Bool
  | .send _ accepted =>
    accepted && hasFlag d.engine.pendingReasons reasonConfigChanged &&
      decide (eventsPerReport < d.engine.queue.toList.length) && !d.engine.queue.overflowed &&
      decide (∃ n, hasBit d.engine.monitored n = true ∧
        replayQueue d.engine.queue.toList n (hasBit d.engine.reportedLevels n) ≠
          (d.engine.debounce n).confirmed)
  | _ => false

/-- The reports replay and the copies of the levels agree. -/
def Replaying (d : Device) : Prop :=
  d.engine.Consistent d.published d.sent ∧ d.sent.IsChain fun r r' => Replays r.status r'.status

theorem replaying_step (d : Device) (op : Op) (h : d.Replaying) (hstale : d.staleEvents op = false) :
    (d.step op).Replaying := by
  obtain ⟨hcon, hchain⟩ := h
  cases op with
  | onEdge gpio raw nowUs =>
    exact ⟨onEdge_preserves Engine.Consistent.observe hcon gpio raw nowUs, hchain⟩
  | resync raw nowUs => exact ⟨resync_preserves Engine.Consistent.observe hcon raw nowUs, hchain⟩
  | task nowUs inputs =>
    refine ⟨?_, hchain⟩
    simp only [step, task_eq]
    cases hs : d.engine.settles nowUs
    · exact hcon.pollTask nowUs
    · have ha : d.engine.settleActive = true := (Bool.and_eq_true_iff.mp hs).1
      exact (hcon.finishSettle ha inputs).pollTask nowUs
  | setPinConfig payload nowUs => exact ⟨hcon.setPinConfig payload nowUs, hchain⟩
  | output payload => exact ⟨hcon.output payload, hchain⟩
  | usbReset => exact ⟨hcon.usbReset, hchain⟩
  | getStatus nowUs => exact ⟨hcon, hchain⟩
  | getDeviceInfo => exact ⟨hcon, hchain⟩
  | getPinConfig => exact ⟨hcon, hchain⟩
  | send nowUs accepted =>
    have hinv := step_inv d (.send nowUs accepted) hcon.inv
    have hsent := sent_step d (.send nowUs accepted)
    rcases d.committed_send nowUs accepted with ⟨hc, he⟩ | ⟨hc, he⟩
    · rw [hc, Option.toList_some] at hsent
      rw [Inv, he] at hinv
      have hacc : accepted = true := by
        by_contra hf
        simp [committed, sendStatusReport_eq, hf] at hc
      refine ⟨?_, ?_⟩
      · rw [he, hsent]
        refine hcon.handOver nowUs (fun hp hd ho n hn => ?_) _ hinv
        by_contra hne
        have hlen : eventsPerReport < d.engine.queue.toList.length := by
          simpa [drains] using hd
        have hstale' : d.staleEvents (.send nowUs accepted) = true := by
          simp only [staleEvents, hacc, hp, ho, hlen, decide_true, Bool.and_true, Bool.not_false,
            Bool.true_and]
          exact decide_eq_true ⟨n, hn, hne⟩
        rw [hstale] at hstale'
        exact absurd hstale' (by decide)
      · rw [hsent, List.isChain_append]
        refine ⟨hchain, by simp, fun r hr r' hr' => ?_⟩
        have heq : r' = ⟨nowUs, d.engine.report nowUs, d.published⟩ := by simpa [eq_comm] using hr'
        rw [heq]
        exact hcon.replays nowUs r hr
    · rw [hc, Option.toList_none, List.append_nil] at hsent
      rw [Inv, he] at hinv
      refine ⟨?_, by rw [hsent]; exact hchain⟩
      rw [he, hsent]
      exact hcon.congr hinv rfl rfl rfl rfl rfl rfl rfl rfl rfl

theorem replaying_start (info : DeviceInfo) (startUs : U64) : (start info startUs).Replaying := by
  refine ⟨⟨inv_run info startUs [], fun _ _ => ⟨?_, ?_, ?_, ?_⟩, ?_, ?_⟩, ?_⟩ <;>
    simp [start, init_eq, blank]

/-- In a run without such a send, every report replays the one before it. -/
theorem reports_replay (info : DeviceInfo) (startUs : U64) (ops : List Op)
    (hstale : ∀ x ∈ Lib.steps step (start info startUs) ops, x.1.staleEvents x.2 = false) :
    (Lib.run step (start info startUs) ops).sent.IsChain fun r r' => Replays r.status r'.status :=
  (Lib.run_invariant (A := fun d op => d.staleEvents op = false) replaying_step
    ops (replaying_start info startUs)
    hstale).2

/-- Eight inputs go low at once; while their events wait, the pull of the last one is changed, and the
    settle reads `inputs`. -/
def pullRun (inputs : U32) : List Op :=
  let edges := List.ofFn fun n : Fin 8 => Op.onEdge (BitVec.ofNat 8 n.val) false 2000
  let pulldown : PinConfig :=
    { pinConfigDefault 0xFF with
      mode := fun n => if n.val = 7 then modeInputPulldown else (pinConfigDefault 0xFF).mode n }
  .task 1000 0xFF :: edges ++
    [.task 30000 0, .setPinConfig (encodePinConfig ⟨0, 0, 1, pulldown⟩) 30000, .task 31000 inputs,
      .send 31000 true, .send 31000 true]

/-- The last pin still reads low. -/
theorem reports_replay_run :
    (Lib.run step (start (sampleInfo 0xFF) 0) (pullRun 0)).sent.length = 2 ∧
    (Lib.run step (start (sampleInfo 0xFF) 0) (pullRun 0)).sent.IsChain
      fun r r' => Replays r.status r'.status :=
  ⟨by decide +kernel, reports_replay (sampleInfo 0xFF) 0 (pullRun 0) (by decide +kernel)⟩

/-- When the last pin reads high, the second report carries its event to low and the level high. -/
theorem reports_contradict :
    ¬ ∀ (info : DeviceInfo) (startUs : U64) (ops : List Op),
      (Lib.run step (start info startUs) ops).sent.IsChain fun r r' => Replays r.status r'.status := by
  intro h
  have hrun : ¬ (Lib.run step (start (sampleInfo 0xFF) 0) (pullRun 0x80)).sent.IsChain
      fun r r' => Replays r.status r'.status := by decide +kernel
  exact hrun (h (sampleInfo 0xFF) 0 (pullRun 0x80))

end Device

end Hidpin.Firmware
