import Hidpin.Firmware.Spec
import Hidpin.Lib.Run

/-! The engine as a machine: its operations in any order, with the send attempt of the main loop
    (`firmware/app/main.c`) as one of them, the reports the endpoint took, and what holds in every
    state the machine can reach. -/

namespace Hidpin.Firmware

namespace Engine

/-- `send_status_report` of the main loop: `accepted` is what `tud_hid_report` returns. The report is
    the one handed over, if any. -/
def sendStatusReport (e : Engine) (nowUs : U64) (accepted : Bool) : Engine × Option Status :=
  match e.prepareReport nowUs with
  | (e, none) => (e, none)
  | (e, some status) => if accepted then (e.commitReport nowUs, some status) else (e, none)

end Engine

/-- A report the endpoint took, when it was assembled, and the configuration published then. -/
@[ext] structure Sent where
  nowUs : U64
  status : Status
  published : PinConfig

instance : DecidableEq Sent := fun a b =>
  decidable_of_iff (a.nowUs = b.nowUs ∧ a.status = b.status ∧ a.published = b.published)
    Sent.ext_iff.symm

/-- An engine in use. `sent` are the reports handed over, oldest first, and `published` is the
    configuration of the last finished settle; the engine reads neither. -/
structure Device where
  engine : Engine
  sent : List Sent
  published : PinConfig

/-- A call of the engine. -/
inductive Op where
  | onEdge (gpio : U8) (raw : Bool) (nowUs : U64)
  | resync (raw : U32) (nowUs : U64)
  | task (nowUs : U64) (inputs : U32)
  | setPinConfig (payload : List U8) (nowUs : U64)
  | output (payload : List U8)
  | usbReset
  | getStatus (nowUs : U64)
  | getDeviceInfo
  | getPinConfig
  | send (nowUs : U64) (accepted : Bool)
  deriving DecidableEq

namespace Device

/-- A device that was just started. -/
def start (info : DeviceInfo) (nowUs : U64) : Device where
  engine := Engine.init info nowUs
  sent := []
  published := blankConfig

/-- The report an operation hands over. -/
def committed (d : Device) : Op → Option Sent
  | .send nowUs accepted =>
    (d.engine.sendStatusReport nowUs accepted).2.map fun status => ⟨nowUs, status, d.published⟩
  | _ => none

/-- One operation. The `get` requests read the engine only. -/
def step (d : Device) : Op → Device
  | .onEdge gpio raw nowUs => { d with engine := d.engine.onEdge gpio raw nowUs }
  | .resync raw nowUs => { d with engine := d.engine.resync raw nowUs }
  | .task nowUs inputs =>
    { d with
      engine := d.engine.task nowUs inputs
      published := if d.engine.settles nowUs then d.engine.config else d.published }
  | .setPinConfig payload nowUs => { d with engine := d.engine.setPinConfig payload nowUs }
  | .output payload => { d with engine := (d.engine.output payload).1 }
  | .usbReset => { d with engine := d.engine.usbReset }
  | .getStatus _ => d
  | .getDeviceInfo => d
  | .getPinConfig => d
  | .send nowUs accepted =>
    { d with
      engine := (d.engine.sendStatusReport nowUs accepted).1
      sent := d.sent ++ (d.committed (.send nowUs accepted)).toList }

theorem sent_step (d : Device) (op : Op) : (d.step op).sent = d.sent ++ (d.committed op).toList := by
  cases op <;> simp [step, committed]

/-- A board with the given pins, for concrete runs. -/
def sampleInfo (available : U32) : DeviceInfo := ⟨0, 1, 0, 1, available, 1, 0, 0, none⟩

end Device

/-! ### Sending -/

namespace Engine

/-- Whether there is anything to report. -/
def reportReady (e : Engine) : Bool :=
  decide ¬(e.pendingReasons = 0 ∧ e.queue.count = 0 ∧ e.queue.overflowed = false)

/-- Whether the next report empties the queue. -/
def drains (e : Engine) : Bool := decide (e.queue.toList.length ≤ eventsPerReport)

/-- The events of the next report. -/
def carried (e : Engine) : List EdgeEvent := e.queue.toList.take eventsPerReport

/-- The levels of the monitored pins in the next report. -/
def reflected (e : Engine) : U32 :=
  (if e.drains then e.confirmedLevels
    else e.carried.foldl (fun r ev => withBit r ev.gpio ev.level) e.reportedLevels) &&& e.monitored

/-- The reasons that the next report gives. -/
def reportReason (e : Engine) : U8 :=
  e.pendingReasons ||| (if 0 < e.carried.length then reasonLevelChanged else 0)

/-- The next report. -/
def report (e : Engine) (nowUs : U64) : Status where
  seq := e.nextSeq
  reason := e.reportReason
  flags := if !e.drains then flagMoreEvents else if e.queue.overflowed then flagOverflow else 0
  monitored := e.monitored
  outputs := e.outputs
  levels := e.reflected ||| (e.outputLevels &&& e.outputs)
  timestampUs := nowUs
  events := e.carried.map (eventOf nowUs)

/-- The engine with its next report staged. -/
def stage (e : Engine) : Engine :=
  { e with
    staged := e.reportReady
    stagedEvents := if e.reportReady then BitVec.ofNat 8 e.carried.length else e.stagedEvents
    stagedReasons := if e.reportReady then e.reportReason else e.stagedReasons
    stagedOverflow := if e.reportReady then e.drains && e.queue.overflowed else e.stagedOverflow
    stagedReportedLevels := if e.reportReady then e.reflected else e.stagedReportedLevels }

theorem takenEvents_eq (e : Engine) : e.takenEvents = e.carried := by
  have hlen : e.queue.toList.length = e.queue.count.toNat := e.queue.length_toList
  have hn : (if e.queue.count < BitVec.ofNat 8 eventsPerReport then e.queue.count
      else BitVec.ofNat 8 eventsPerReport).toNat = min eventsPerReport e.queue.count.toNat := by
    have h7 : (BitVec.ofNat 8 eventsPerReport).toNat = eventsPerReport := rfl
    split
    · next hlt => rw [BitVec.lt_def, h7] at hlt; omega
    · next hge => rw [BitVec.lt_def, h7] at hge; omega
  refine List.ext_getElem ?_ fun i h1 h2 => ?_
  · simp only [takenEvents, hn, carried, List.length_map, List.length_range, List.length_take, hlen]
  · have hi : i < e.queue.toList.length := by
      simp only [carried, List.length_take] at h2; omega
    simp only [takenEvents, carried, List.getElem_map, List.getElem_range, List.getElem_take]
    exact e.queue.peek_eq hi

/-- `hp_engine_prepare_report` stages and returns the next report if there is one. -/
theorem prepareReport_eq (e : Engine) (nowUs : U64) :
    e.prepareReport nowUs = (e.stage, if e.reportReady then some (e.report nowUs) else none) := by
  have hlen : e.queue.toList.length = e.queue.count.toNat := e.queue.length_toList
  have hdrain : decide (e.queue.count.toNat = e.carried.length) = e.drains := by
    simp only [drains, carried, List.length_take, hlen, decide_eq_decide]
    omega
  have htaken : ∀ s : Bool, { e with staged := s }.takenEvents = e.carried := fun s =>
    takenEvents_eq { e with staged := s }
  by_cases hr : e.pendingReasons = 0 ∧ e.queue.count = 0 ∧ e.queue.overflowed = false
  · simp [prepareReport, stage, reportReady, hr]
  · have hready : e.reportReady = true := decide_eq_true hr
    simp only [prepareReport, if_neg hr, htaken, hdrain, hready, if_true, stage, report, reportReason,
      reflected, confirmedLevels]

/-- The engine after its next report was handed over. -/
def handOver (e : Engine) (nowUs : U64) : Engine :=
  { e with
    queue :=
      { e.queue.drop (BitVec.ofNat 8 e.carried.length) with
        overflowed := e.queue.overflowed && !e.drains }
    reportedLevels := e.reflected
    pendingReasons := e.pendingReasons &&& ~~~e.reportReason
    lastSeq := e.nextSeq
    nextSeq := e.nextSeq + 1
    hasSent := true
    lastSentUs := nowUs
    staged := false
    stagedEvents := BitVec.ofNat 8 e.carried.length
    stagedReasons := e.reportReason
    stagedOverflow := e.drains && e.queue.overflowed
    stagedReportedLevels := e.reflected }

/-- A send attempt either hands the next report over or only stages it. -/
theorem sendStatusReport_eq (e : Engine) (nowUs : U64) (accepted : Bool) :
    e.sendStatusReport nowUs accepted =
      if e.reportReady && accepted then (e.handOver nowUs, some (e.report nowUs)) else (e.stage, none) := by
  rw [sendStatusReport, prepareReport_eq]
  cases hr : e.reportReady
  · simp
  · cases accepted
    · simp
    · simp only [if_true, Bool.and_true, Prod.mk.injEq, and_true]
      simp only [commitReport, stage, hr, handOver, if_true, Bool.not_true, Bool.false_eq_true, if_false]
      cases e.drains <;> cases ho : e.queue.overflowed <;> simp [EventQueue.drop, ho]

/-- `hp_engine_task` after a settle has finished, if one did. -/
def pollTask (e : Engine) (nowUs : U64) : Engine :=
  if (e.pollPins nowUs).periodicDue nowUs then
    { e.pollPins nowUs with pendingReasons := (e.pollPins nowUs).pendingReasons ||| reasonPeriodic }
  else e.pollPins nowUs

theorem task_eq (e : Engine) (nowUs : U64) (inputs : U32) :
    e.task nowUs inputs = (if e.settles nowUs then e.finishSettle inputs else e).pollTask nowUs := by
  simp only [task, pollTask]

/-! ### The invariant of the representation -/

/-- What ties the fields of an engine together, but for the reported levels; `published` is the
    configuration of the last finished settle. -/
structure Rep (published : PinConfig) (e : Engine) : Prop where
  queue : e.queue.WF
  debounce : ∀ n, (e.debounce n).WF
  valid : e.config.Valid e.info.available
  monitored : e.monitored = inputMask published
  outputs : e.outputs = outputMask published
  settling : ∀ n, hasBit e.settling n = true → modeIsInput (e.config.mode n) = true
  kept : ∀ n, modeIsInput (e.config.mode n) = true → hasBit e.settling n = false →
    published.mode n = e.config.mode n
  settled : e.settleActive = false →
    (∀ n, hasBit e.settling n = false) ∧ e.configChanged = false ∧ published = e.config

namespace Rep
variable {published : PinConfig} {e e' : Engine}

/-- A monitored pin is not an output. -/
theorem not_output (h : Rep published e) {n : Gpio} (hn : hasBit e.monitored n = true) :
    hasBit e.outputs n = false := by
  rw [h.monitored, hasBit_inputMask] at hn
  rw [h.outputs, hasBit_outputMask, decide_eq_false_iff_not]
  intro hc
  rw [hc, modeIsInput_modeOutput] at hn
  exact absurd hn (by decide)

theorem of_frame (h : Rep published e) (hf : Frame e e') (hq : e'.queue.WF)
    (hd : ∀ n, (e'.debounce n).WF) : Rep published e' where
  queue := hq
  debounce := hd
  valid := by rw [hf.config, hf.info]; exact h.valid
  monitored := by rw [hf.monitored]; exact h.monitored
  outputs := by rw [hf.outputs]; exact h.outputs
  settling := by rw [hf.settling, hf.config]; exact h.settling
  kept := by rw [hf.settling, hf.config]; exact h.kept
  settled := by rw [hf.settleActive, hf.settling, hf.configChanged, hf.config]; exact h.settled

theorem observe (h : Rep published e) (n : Gpio) {r : Debounce × Option U64}
    (hr : (e.debounce n).Change r) : Rep published (e.observe n r) := by
  refine h.of_frame (frame_observe e n r) ?_ fun m => ?_
  · rcases r with ⟨d, _ | start⟩
    · exact h.queue
    · exact EventQueue.wf_push h.queue _
  · rw [debounce_observe]
    by_cases hm : m = n
    · subst hm; simpa using hr.wf
    · simpa [hm] using h.debounce m

theorem finishSettle (h : Rep published e) (inputs : U32) : Rep e.config (e.finishSettle inputs) := by
  rw [finishSettle_eq]
  refine ⟨h.queue, fun n => ?_, h.valid, rfl, rfl, ?_, ?_, ?_⟩
  · simp only [readDebounce]
    split_ifs
    · exact Debounce.wf_reset _ _
    · exact h.debounce n
  · simp
  · simp
  · simp

theorem pollTask (h : Rep published e) (nowUs : U64) : Rep published (e.pollTask nowUs) := by
  have hpoll := pollPins_preserves (P := Rep published) (fun _ he => he.debounce)
    (fun _ n _ he _ hr => he.observe n hr) h nowUs
  unfold Engine.pollTask
  split_ifs
  · exact ⟨hpoll.queue, hpoll.debounce, hpoll.valid, hpoll.monitored, hpoll.outputs, hpoll.settling,
      hpoll.kept, hpoll.settled⟩
  · exact hpoll

theorem of_applied (h : Rep published e) {next : PinConfig} (hv : next.Valid e.info.available)
    {nowUs : U64} (ha : Applied e next nowUs e') : Rep published e' := by
  have hin : ∀ n, modeIsInput (next.mode n) = true → appliedSettling e.config next n
      (hasBit e.settling n) = false → hasBit e.settling n = false ∧ e.config.mode n = next.mode n := by
    intro n hn hs
    simp only [appliedSettling] at hs
    split_ifs at hs with hsame
    · exact ⟨hs, (of_decide_eq_true hsame).1⟩
    · simpa [hn, and_comm] using hs
  refine ⟨?_, fun n => ?_, ?_, ?_, ?_, fun n hn => ?_, fun n hmode hn => ?_, fun hs => ?_⟩
  · rw [ha.queue]; exact h.queue
  · rw [ha.debounce, appliedDebounce]
    split_ifs
    · exact Debounce.wf_setTime (h.debounce n) _ _
    · exact h.debounce n
  · rw [ha.config, ha.info]; exact hv
  · rw [ha.monitored]; exact h.monitored
  · rw [ha.outputs]; exact h.outputs
  · rw [ha.settling, appliedSettling] at hn
    rw [ha.config]
    split_ifs at hn with hsame
    · rw [← (of_decide_eq_true hsame).1]; exact h.settling n hn
    · exact (Bool.and_eq_true_iff.mp hn).1
  · rw [ha.config] at hmode ⊢
    rw [ha.settling] at hn
    obtain ⟨hold, hsame⟩ := hin n hmode hn
    rw [← hsame] at hmode ⊢
    exact h.kept n hmode hold
  · rw [ha.settleActive, Bool.or_eq_false_iff, decide_eq_false_iff_not, not_ne_iff] at hs
    obtain ⟨h1, h2, h3⟩ := h.settled hs.1
    refine ⟨fun n => ?_, ?_, ?_⟩
    · rw [ha.settling, appliedSettling, hs.2]
      simp [sameEntry, h1]
    · rw [ha.configChanged, h2, hs.2]; simp
    · rw [ha.config, hs.2]; exact h3

theorem setPinConfig (h : Rep published e) (payload : List U8) (nowUs : U64) :
    Rep published (e.setPinConfig payload nowUs) := by
  rcases e.setPinConfig_cases payload nowUs with ⟨_, heq⟩ | ⟨next, hc, ha⟩
  · rw [heq]
    exact ⟨h.queue, h.debounce, h.valid, h.monitored, h.outputs, h.settling, h.kept, h.settled⟩
  · obtain ⟨⟨_, hv⟩, rfl⟩ := acceptedConfig_eq_some.mp hc
    exact h.of_applied hv ha

theorem output (h : Rep published e) (payload : List U8) : Rep published (e.output payload).1 := by
  simp only [Engine.output]
  split
  · exact h
  · exact ⟨h.queue, h.debounce, h.valid, h.monitored, h.outputs, h.settling, h.kept, h.settled⟩

theorem usbReset (h : Rep published e) : Rep published e.usbReset := by
  simp only [Engine.usbReset]
  split_ifs
  · exact h
  · exact ⟨h.queue, h.debounce, h.valid, h.monitored, h.outputs, h.settling, h.kept, h.settled⟩

theorem stage (h : Rep published e) : Rep published e.stage :=
  ⟨h.queue, h.debounce, h.valid, h.monitored, h.outputs, h.settling, h.kept, h.settled⟩

theorem handOver (h : Rep published e) (nowUs : U64) : Rep published (e.handOver nowUs) := by
  have hq := EventQueue.wf_drop h.queue (BitVec.ofNat 8 e.carried.length)
  exact ⟨⟨hq.head_lt, hq.count_le⟩, h.debounce, h.valid, h.monitored, h.outputs, h.settling, h.kept,
    h.settled⟩

end Rep

/-- What ties the fields of an engine together. -/
structure Inv (published : PinConfig) (e : Engine) : Prop extends Rep published e where
  reported : ∀ n, hasBit e.reportedLevels n = true → hasBit e.monitored n = true

namespace Inv
variable {published : PinConfig} {e e' : Engine}

theorem of_rep (h : Inv published e) (hr : Rep published e') (hl : e'.reportedLevels = e.reportedLevels)
    (hm : e'.monitored = e.monitored) : Inv published e' :=
  ⟨hr, by rw [hl, hm]; exact h.reported⟩

theorem observe (h : Inv published e) (n : Gpio) {r : Debounce × Option U64}
    (hr : (e.debounce n).Change r) : Inv published (e.observe n r) :=
  h.of_rep (h.toRep.observe n hr) (frame_observe e n r).reportedLevels (frame_observe e n r).monitored

theorem finishSettle (h : Inv published e) (inputs : U32) : Inv e.config (e.finishSettle inputs) := by
  refine ⟨h.toRep.finishSettle inputs, fun n => ?_⟩
  rw [finishSettle_eq]
  simp only [hasBit_and, Bool.and_eq_true]
  exact And.right

theorem pollTask (h : Inv published e) (nowUs : U64) : Inv published (e.pollTask nowUs) := by
  have hf := e.frame_pollPins nowUs
  refine h.of_rep (h.toRep.pollTask nowUs) ?_ ?_ <;> unfold Engine.pollTask <;> split_ifs
  · exact hf.reportedLevels
  · exact hf.reportedLevels
  · exact hf.monitored
  · exact hf.monitored

theorem setPinConfig (h : Inv published e) (payload : List U8) (nowUs : U64) :
    Inv published (e.setPinConfig payload nowUs) := by
  have hr := h.toRep.setPinConfig payload nowUs
  rcases e.setPinConfig_cases payload nowUs with ⟨_, heq⟩ | ⟨next, _, ha⟩
  · rw [heq] at hr ⊢
    exact h.of_rep hr rfl rfl
  · exact h.of_rep hr ha.reportedLevels ha.monitored

theorem output (h : Inv published e) (payload : List U8) : Inv published (e.output payload).1 := by
  refine h.of_rep (h.toRep.output payload) ?_ ?_ <;> simp only [Engine.output] <;> split <;> rfl

theorem usbReset (h : Inv published e) : Inv published e.usbReset := by
  refine h.of_rep h.toRep.usbReset ?_ ?_ <;> simp only [Engine.usbReset] <;> split_ifs <;> rfl

theorem handOver (h : Inv published e) (nowUs : U64) : Inv published (e.handOver nowUs) := by
  refine ⟨h.toRep.handOver nowUs, fun n => ?_⟩
  simp only [Engine.handOver, reflected, hasBit_and, Bool.and_eq_true]
  exact And.right

theorem sendStatusReport (h : Inv published e) (nowUs : U64) (accepted : Bool) :
    Inv published (e.sendStatusReport nowUs accepted).1 := by
  rw [sendStatusReport_eq]
  split_ifs
  · exact h.handOver nowUs
  · exact h.of_rep h.toRep.stage rfl rfl

end Inv

theorem initPins_eq : ∀ (l : List Gpio) (e : Engine),
    l.foldl initPin e =
      { e with
        hw := e.hw ++ (l.filter fun n => modeIsInput (e.config.mode n)).map fun n =>
          .setInput n (e.config.mode n)
        settling := l.foldl (fun m n => if modeIsInput (e.config.mode n) then m ||| gpioBit n else m)
          e.settling }
  | [], e => by simp
  | n :: l, e => by
      rw [List.foldl_cons, initPins_eq l]
      by_cases h : modeIsInput (e.config.mode n) = true <;> simp [initPin, h]

/-- An initialised engine: every input waits for its first reading. -/
theorem init_eq (info : DeviceInfo) (nowUs : U64) :
    init info nowUs =
      { blank info with
        hw := ((List.finRange gpioCount).filter fun n =>
          modeIsInput ((pinConfigDefault info.available).mode n)).map fun n =>
            .setInput n ((pinConfigDefault info.available).mode n)
        settling := inputMask (pinConfigDefault info.available)
        settleActive := true
        settleDeadlineUs := nowUs + settleUs
        lastSentUs := nowUs } := by
  simp only [init, initPins_eq, startSettle]
  rfl

theorem inv_init (info : DeviceInfo) (nowUs : U64) : Inv blankConfig (init info nowUs) := by
  rw [init_eq]
  refine ⟨⟨EventQueue.wf_init, fun n => Debounce.wf_zero, pinConfigDefault_valid info.available, ?_, ?_,
    ?_, ?_, ?_⟩, ?_⟩
  · exact (by decide : (0 : U32) = inputMask blankConfig)
  · exact (by decide : (0 : U32) = outputMask blankConfig)
  · simp [blank]
  · intro n hin hset
    rw [hasBit_inputMask] at hset
    exact absurd (hset.symm.trans hin) (by decide)
  · simp
  · simp [blank]

end Engine

namespace Device

/-- The invariant of the representation, with the configuration the device published. -/
def Inv (d : Device) : Prop := d.engine.Inv d.published

/-- Every operation keeps the invariant. -/
theorem step_inv (d : Device) (op : Op) (h : d.Inv) : (d.step op).Inv := by
  have hobs : ∀ c (e : Engine) n r, e.Inv c → e.isTracking n = true → (e.debounce n).Change r →
      (e.observe n r).Inv c := fun _ _ n _ he _ hr => he.observe n hr
  cases op with
  | onEdge gpio raw nowUs => exact Engine.onEdge_preserves (hobs _) h gpio raw nowUs
  | resync raw nowUs => exact Engine.resync_preserves (hobs _) h raw nowUs
  | task nowUs inputs =>
    rw [Inv, step, Engine.task_eq]
    cases d.engine.settles nowUs
    · exact Engine.Inv.pollTask h nowUs
    · exact (Engine.Inv.finishSettle h inputs).pollTask nowUs
  | setPinConfig payload nowUs => exact h.setPinConfig payload nowUs
  | output payload => exact h.output payload
  | usbReset => exact h.usbReset
  | getStatus nowUs => exact h
  | getDeviceInfo => exact h
  | getPinConfig => exact h
  | send nowUs accepted => exact h.sendStatusReport nowUs accepted

theorem inv_run (info : DeviceInfo) (nowUs : U64) (ops : List Op) :
    (Lib.run step (start info nowUs) ops).Inv :=
  Lib.run_preserves step_inv ops (Engine.inv_init info nowUs)

end Device

end Hidpin.Firmware
