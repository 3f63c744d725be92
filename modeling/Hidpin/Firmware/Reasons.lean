import Hidpin.Firmware.Delivery

/-! The reason byte. `addedReasons` is what one operation adds to the pending reasons; a report takes
    all of them. The two latches behind CONFIG_CHANGED and PERIODIC are tied to the operations that
    came before. -/

namespace Hidpin.Firmware

namespace Device
open Engine

/-! ### The causes -/

/-- An operation that hands a report over. -/
def handsOver (x : Device × Op) : Bool := (x.1.committed x.2).isSome

/-- A task call that finishes a settle. -/
def finishesSettle (x : Device × Op) : Bool :=
  match x.2 with
  | .task nowUs _ => x.1.engine.settles nowUs
  | _ => false

/-- An accepted Set that differs from the configuration in force. -/
def changesConfig (x : Device × Op) : Bool :=
  match x.2 with
  | .setPinConfig payload _ =>
    (x.1.engine.acceptedConfig payload).any fun next => decide (next ≠ x.1.engine.config)
  | _ => false

/-- An output command of the right length. -/
def appliesOutput (x : Device × Op) : Bool :=
  match x.2 with
  | .output payload => decide (payload.length = outputPayloadLen)
  | _ => false

/-- A USB reset while the configuration has an output pin. -/
def resetsOutputs (x : Device × Op) : Bool :=
  match x.2 with
  | .usbReset => decide (∃ n, x.1.engine.config.mode n = modeOutput)
  | _ => false

/-- When the latest report was handed over, or the start. -/
def lastHandOver (startUs : U64) (d : Device) : U64 := (d.sent.getLast?.map Sent.nowUs).getD startUs

/-- A task call 1000 ms or more after the latest report. -/
def findsPeriodicDue (startUs : U64) (x : Device × Op) : Bool :=
  match x.2 with
  | .task nowUs _ => decide ((lastHandOver startUs x.1).toNat + 1000 * 1000 ≤ nowUs.toNat)
  | _ => false

/-- A step, with the steps before it, that finishes a settle begun by a change of configuration. -/
def settlesChange (p : List (Device × Op) × (Device × Op)) : Bool :=
  finishesSettle p.2 && (Lib.since finishesSettle p.1).any changesConfig

/-! ### One operation -/

/-- The reasons an operation adds. -/
def addedReasons (d : Device) : Op → U8
  | .output payload => if payload.length = outputPayloadLen then reasonOutputApplied else 0
  | .usbReset => if outputMask d.engine.config = 0 then 0 else reasonOutputReset
  | .task nowUs _ =>
    (if d.engine.settles nowUs && d.engine.configChanged then reasonConfigChanged else 0) |||
      (if d.engine.periodicDue nowUs then reasonPeriodic else 0)
  | _ => 0

theorem pollTask_fields (e : Engine) (nowUs : U64) :
    (e.pollTask nowUs).pendingReasons =
        e.pendingReasons ||| (if e.periodicDue nowUs then reasonPeriodic else 0) ∧
      (e.pollTask nowUs).configChanged = e.configChanged ∧
      (e.pollTask nowUs).lastSentUs = e.lastSentUs := by
  have hf := e.frame_pollPins nowUs
  have hdue : (e.pollPins nowUs).periodicDue nowUs = e.periodicDue nowUs := by
    simp only [periodicDue, hf.lastSentUs]
  simp only [pollTask, hdue]
  cases e.periodicDue nowUs
  · simp [hf.pendingReasons, hf.configChanged, hf.lastSentUs]
  · simp [hf.pendingReasons, hf.configChanged, hf.lastSentUs]

/-- An operation that hands over takes all pending reasons; any other adds its own. -/
theorem pendingReasons_step (d : Device) (op : Op) :
    (d.step op).engine.pendingReasons =
      if handsOver (d, op) then 0 else d.engine.pendingReasons ||| d.addedReasons op := by
  cases op with
  | onEdge gpio raw nowUs =>
    simp [step, handsOver, committed, addedReasons, (d.engine.frame_onEdge gpio raw nowUs).pendingReasons]
  | resync raw nowUs =>
    simp [step, handsOver, committed, addedReasons, (d.engine.frame_resync raw nowUs).pendingReasons]
  | task nowUs inputs =>
    simp only [step, task_eq, (pollTask_fields _ nowUs).1, handsOver, committed, addedReasons]
    cases hs : d.engine.settles nowUs
    · simp
    · have hdue : (d.engine.finishSettle inputs).periodicDue nowUs = d.engine.periodicDue nowUs := by
        rw [finishSettle_eq]; rfl
      rw [if_pos rfl, hdue, finishSettle_eq]
      cases d.engine.configChanged <;> simp [BitVec.or_assoc]
  | setPinConfig payload nowUs =>
    rcases d.engine.setPinConfig_cases payload nowUs with ⟨_, heq⟩ | ⟨next, _, ha⟩
    · simp [step, handsOver, committed, addedReasons, heq, recordResult]
    · simp [step, handsOver, committed, addedReasons, ha.pendingReasons]
  | output payload =>
    by_cases hlen : payload.length = outputPayloadLen
    · simp [step, handsOver, committed, addedReasons, output, outputDecode, hlen]
    · simp [step, handsOver, committed, addedReasons, output, outputDecode, hlen]
  | usbReset =>
    simp only [step, handsOver, committed, addedReasons, usbReset]
    split_ifs <;> simp_all
  | send nowUs accepted =>
    rcases d.committed_send nowUs accepted with ⟨hc, he⟩ | ⟨hc, he⟩
    · have hall : d.engine.pendingReasons &&& ~~~d.engine.reportReason = 0 := by
        rw [reportReason, BitVec.not_or, ← BitVec.and_assoc, BitVec.and_not_self]
        exact BitVec.zero_and
      simp [handsOver, hc, he, handOver, hall]
    · simp [handsOver, hc, he, stage, addedReasons]
  | _ => simp [step, handsOver, committed, addedReasons]

/-- The latch of a changed configuration. -/
theorem configChanged_step (d : Device) (op : Op) :
    (d.step op).engine.configChanged =
      (!finishesSettle (d, op) && (d.engine.configChanged || changesConfig (d, op))) := by
  cases op with
  | onEdge gpio raw nowUs =>
    simp [step, finishesSettle, changesConfig, (d.engine.frame_onEdge gpio raw nowUs).configChanged]
  | resync raw nowUs =>
    simp [step, finishesSettle, changesConfig, (d.engine.frame_resync raw nowUs).configChanged]
  | task nowUs inputs =>
    simp only [step, task_eq, (pollTask_fields _ nowUs).2.1, finishesSettle, changesConfig, Bool.or_false]
    cases hs : d.engine.settles nowUs
    · simp
    · simp [finishSettle_eq]
  | setPinConfig payload nowUs =>
    rcases d.engine.setPinConfig_cases payload nowUs with ⟨hc, heq⟩ | ⟨next, hc, ha⟩
    · simp [step, finishesSettle, changesConfig, heq, hc, recordResult]
    · simp [step, finishesSettle, changesConfig, ha.configChanged, hc]
  | output payload =>
    simp only [step, finishesSettle, changesConfig, output]
    split <;> simp
  | usbReset =>
    simp only [step, finishesSettle, changesConfig, usbReset]
    split_ifs <;> simp
  | send nowUs accepted =>
    rcases d.committed_send nowUs accepted with ⟨_, he⟩ | ⟨_, he⟩ <;>
      simp [he, handOver, stage, finishesSettle, changesConfig]
  | _ => simp [step, finishesSettle, changesConfig]

/-- The time of the latest report. -/
theorem lastSentUs_step (d : Device) (op : Op) :
    (d.step op).engine.lastSentUs = ((d.committed op).map Sent.nowUs).getD d.engine.lastSentUs := by
  cases op with
  | onEdge gpio raw nowUs => simp [step, committed, (d.engine.frame_onEdge gpio raw nowUs).lastSentUs]
  | resync raw nowUs => simp [step, committed, (d.engine.frame_resync raw nowUs).lastSentUs]
  | task nowUs inputs =>
    simp only [step, task_eq, (pollTask_fields _ nowUs).2.2, committed]
    cases d.engine.settles nowUs
    · simp
    · simp [finishSettle_eq]
  | setPinConfig payload nowUs =>
    rcases d.engine.setPinConfig_cases payload nowUs with ⟨_, heq⟩ | ⟨next, _, ha⟩
    · simp [step, committed, heq, recordResult]
    · simp [step, committed, ha.lastSentUs]
  | output payload =>
    simp only [step, committed, output]
    split <;> simp
  | usbReset =>
    simp only [step, committed, usbReset]
    split_ifs <;> simp
  | send nowUs accepted =>
    rcases d.committed_send nowUs accepted with ⟨hc, he⟩ | ⟨hc, he⟩ <;> simp [hc, he, handOver, stage]
  | _ => simp [step, committed]

/-! ### Runs -/

/-- The pending reasons are those added since the latest report. -/
theorem pendingReasons_run (info : DeviceInfo) (startUs : U64) (ops : List Op) (f : U8) :
    hasFlag (Lib.run step (start info startUs) ops).engine.pendingReasons f =
      (Lib.since (fun p => handsOver p.2) (Lib.withPast (Lib.steps step (start info startUs) ops))).any
        fun p => hasFlag (p.2.1.addedReasons p.2.2) f := by
  induction ops using List.reverseRecOn with
  | nil => simp [start, init_eq, blank, hasFlag_zero]
  | append_singleton ops op ih =>
    rw [Lib.run_append, Lib.steps_concat, Lib.withPast_concat, Lib.since_concat]
    generalize Lib.run step (start info startUs) ops = d at ih ⊢
    rw [Lib.run_cons, Lib.run_nil, pendingReasons_step]
    cases h : handsOver (d, op)
    · simp [ih, hasFlag_or]
    · simp [hasFlag_zero]

/-- The latch says whether a differing Set was accepted since the last finished settle. -/
theorem configChanged_run (info : DeviceInfo) (startUs : U64) (ops : List Op) :
    (Lib.run step (start info startUs) ops).engine.configChanged =
      (Lib.since finishesSettle (Lib.steps step (start info startUs) ops)).any changesConfig := by
  induction ops using List.reverseRecOn with
  | nil => simp [start, init_eq, blank]
  | append_singleton ops op ih =>
    rw [Lib.run_append, Lib.steps_concat, Lib.since_concat]
    generalize Lib.run step (start info startUs) ops = d at ih ⊢
    rw [Lib.run_cons, Lib.run_nil, configChanged_step]
    cases h : finishesSettle (d, op)
    · simp [ih]
    · simp

theorem lastHandOver_step (startUs : U64) (d : Device) (op : Op) :
    lastHandOver startUs (d.step op) = ((d.committed op).map Sent.nowUs).getD (lastHandOver startUs d) := by
  rw [lastHandOver, sent_step]
  cases d.committed op <;> simp [lastHandOver]

theorem lastSentUs_run (info : DeviceInfo) (startUs : U64) (ops : List Op) :
    (Lib.run step (start info startUs) ops).engine.lastSentUs =
      lastHandOver startUs (Lib.run step (start info startUs) ops) :=
  Lib.run_preserves (P := fun d => d.engine.lastSentUs = lastHandOver startUs d)
    (fun d op h => by rw [lastSentUs_step, lastHandOver_step, h]) ops
    (by simp [start, init_eq, lastHandOver])

/-- The times of the calls. -/
def Op.time : Op → Option U64
  | .onEdge _ _ nowUs => some nowUs
  | .resync _ nowUs => some nowUs
  | .task nowUs _ => some nowUs
  | .setPinConfig _ nowUs => some nowUs
  | .output _ => none
  | .usbReset => none
  | .getStatus nowUs => some nowUs
  | .getDeviceInfo => none
  | .getPinConfig => none
  | .send nowUs _ => some nowUs

/-- The start and the calls come in the order of their times. -/
def Timely (startUs : U64) (ops : List Op) : Prop :=
  (startUs :: ops.filterMap Op.time).Pairwise (· ≤ ·)

instance (startUs : U64) (ops : List Op) : Decidable (Timely startUs ops) :=
  inferInstanceAs (Decidable (List.Pairwise _ _))

theorem lastHandOver_mem (info : DeviceInfo) (startUs : U64) (ops : List Op) :
    lastHandOver startUs (Lib.run step (start info startUs) ops) ∈ startUs :: ops.filterMap Op.time := by
  induction ops using List.reverseRecOn with
  | nil => simp [start, lastHandOver]
  | append_singleton ops op ih =>
    rw [Lib.run_append, List.filterMap_append]
    generalize Lib.run step (start info startUs) ops = d at ih ⊢
    rw [Lib.run_cons, Lib.run_nil, lastHandOver_step]
    cases hc : d.committed op with
    | some r =>
      obtain ⟨t, accepted, rfl, rfl, _, _⟩ := committed_eq_some hc
      simp [Op.time]
    | none => exact List.mem_append_left _ ih

/-- In a timely run the periodic test compares with the latest report. -/
theorem periodicDue_iff (info : DeviceInfo) {startUs : U64} {ops rest : List Op} {nowUs : U64} {inputs : U32}
    (h : Timely startUs (ops ++ .task nowUs inputs :: rest)) :
    (Lib.run step (start info startUs) ops).engine.periodicDue nowUs =
      findsPeriodicDue startUs (Lib.run step (start info startUs) ops, .task nowUs inputs) := by
  have hle : lastHandOver startUs (Lib.run step (start info startUs) ops) ≤ nowUs := by
    have hmem := lastHandOver_mem info startUs ops
    rw [Timely, List.filterMap_append, ← List.cons_append, List.pairwise_append] at h
    exact h.2.2 _ hmem nowUs (by simp [Op.time])
  have hint : periodicIntervalUs.toNat = 1000 * 1000 := by decide
  have hsub := BitVec.toNat_sub_of_le hle
  rw [BitVec.le_def] at hle
  simp only [periodicDue, findsPeriodicDue, lastSentUs_run, ge_iff_le, BitVec.le_def, hint, hsub,
    decide_eq_decide]
  omega

/-- A full queue never becomes empty without a report that carries OVERFLOW. -/
theorem queued_of_overflowed (info : DeviceInfo) (startUs : U64) (ops : List Op) :
    (Lib.run step (start info startUs) ops).engine.queue.overflowed = true →
      (Lib.run step (start info startUs) ops).engine.queue.toList ≠ [] := by
  refine (Lib.run_preserves (P := fun d : Device => d.Inv ∧
    (d.engine.queue.overflowed = true → d.engine.queue.toList ≠ [])) (fun d op h => ?_) ops
    ⟨inv_run info startUs [], by simp [start, init_eq, blank]⟩).2
  refine ⟨step_inv d op h.1, fun ho => ?_⟩
  by_cases hop : ∀ t accepted, op ≠ .send t accepted
  · obtain ⟨new, _, hq, hov, hne⟩ := grows_step h.1 hop
    rw [hov, Bool.or_eq_true] at ho
    rcases ho with ho | ho
    · rw [hq]
      exact List.append_ne_nil_of_left_ne_nil (h.2 ho) _
    · exact hne ho
  · simp only [not_forall, not_not] at hop
    obtain ⟨t, accepted, rfl⟩ := hop
    rcases d.committed_send t accepted with ⟨_, he⟩ | ⟨_, he⟩
    · rw [he] at ho
      simp only [handOver, Bool.and_eq_true, Bool.not_eq_true', drains, decide_eq_false_iff_not] at ho
      rw [he, toList_handOver, Ne, List.drop_eq_nil_iff]
      exact ho.2
    · rw [he] at ho ⊢
      exact h.2 ho

/-! ### The reason byte -/

/-- The bits an operation can add. -/
theorem hasFlag_addedReasons (d : Device) (op : Op) :
    hasFlag (d.addedReasons op) reasonHostRequest = false ∧
    hasFlag (d.addedReasons op) reasonLevelChanged = false ∧
    hasFlag (d.addedReasons op) reasonOutputApplied = appliesOutput (d, op) ∧
    hasFlag (d.addedReasons op) reasonOutputReset = resetsOutputs (d, op) ∧
    hasFlag (d.addedReasons op) reasonConfigChanged =
      (finishesSettle (d, op) && d.engine.configChanged) ∧
    hasFlag (d.addedReasons op) reasonPeriodic =
      (match op with | .task nowUs _ => d.engine.periodicDue nowUs | _ => false) := by
  cases op with
  | task nowUs inputs =>
    simp only [addedReasons, appliesOutput, resetsOutputs, finishesSettle]
    generalize d.engine.settles nowUs = s
    generalize d.engine.configChanged = c
    generalize d.engine.periodicDue nowUs = p
    revert s c p
    decide
  | output payload =>
    simp only [addedReasons, appliesOutput, resetsOutputs, finishesSettle, Bool.false_and]
    by_cases h : payload.length = outputPayloadLen <;> simp only [h, if_true, if_false] <;> decide
  | usbReset =>
    have h0 : outputMask d.engine.config = 0 ↔ ¬ ∃ n, d.engine.config.mode n = modeOutput := by
      constructor
      · rintro h ⟨n, hn⟩
        have := hasBit_outputMask d.engine.config n
        rw [h, hn] at this
        simp at this
      · intro h
        have hall : ∀ n : Gpio, decide (d.engine.config.mode n = modeOutput) = false := by
          simpa using h
        have : outputMask d.engine.config = Lib.collect 32 fun _ : Gpio => false := by
          simp only [outputMask, hall]
        rw [this]
        decide
    simp only [addedReasons, appliesOutput, resetsOutputs, finishesSettle, h0, Bool.false_and]
    by_cases h : ∃ n, d.engine.config.mode n = modeOutput <;> simp only [h, not_true, not_false_iff,
      if_true, if_false] <;> decide
  | _ => simp [addedReasons, appliesOutput, resetsOutputs, finishesSettle, hasFlag_zero]

theorem hasFlag_reportReason (e : Engine) (f : U8) :
    hasFlag e.reportReason f =
      (hasFlag e.pendingReasons f || (decide (0 < e.carried.length) && hasFlag reasonLevelChanged f)) := by
  rw [reportReason, hasFlag_or, hasFlag_ite]
  by_cases h : 0 < e.carried.length <;> simp [h]

/-- A report has something to say. -/
theorem reportReason_ne_zero {e : Engine} (hready : e.reportReady = true)
    (hqueued : e.queue.overflowed = true → e.queue.toList ≠ []) : e.reportReason ≠ 0#8 := by
  intro h0
  rw [reportReason, BitVec.or_eq_zero_iff] at h0
  obtain ⟨hpend, hlevel⟩ := h0
  have hcarried : e.carried = [] := by
    by_contra hne
    rw [if_pos (List.length_pos_iff.mpr hne)] at hlevel
    exact absurd hlevel (by decide)
  have hempty : e.queue.toList = [] := by
    rcases List.take_eq_nil_iff.mp hcarried with h | h
    · exact absurd h (by decide)
    · exact h
  have hcount : e.queue.count = 0 := by
    have hlen := e.queue.length_toList
    rw [hempty] at hlen
    exact BitVec.eq_of_toNat_eq hlen.symm
  refine of_decide_eq_true hready ⟨hpend, hcount, ?_⟩
  by_contra ho
  exact hqueued (by simpa using ho) hempty

/-- The steps, each with the steps before it, since the latest report. -/
def sinceReport (info : DeviceInfo) (startUs : U64) (ops : List Op) :
    List (List (Device × Op) × (Device × Op)) :=
  Lib.since (fun p => handsOver p.2) (Lib.withPast (Lib.steps step (start info startUs) ops))

/-- What the reason byte of a report says about the steps since the previous one. -/
structure ReasonOf (startUs : U64) (recent : List (List (Device × Op) × (Device × Op)))
    (status : Status) : Prop where
  nonzero : status.reason ≠ 0
  hostRequest : hasFlag status.reason reasonHostRequest = false
  levelChanged : hasFlag status.reason reasonLevelChanged = true ↔ status.events ≠ []
  outputApplied : hasFlag status.reason reasonOutputApplied = true ↔
    ∃ p ∈ recent, appliesOutput p.2 = true
  outputReset : hasFlag status.reason reasonOutputReset = true ↔ ∃ p ∈ recent, resetsOutputs p.2 = true
  configChanged : hasFlag status.reason reasonConfigChanged = true ↔ ∃ p ∈ recent, settlesChange p = true
  periodic : hasFlag status.reason reasonPeriodic = true ↔
    ∃ p ∈ recent, findsPeriodicDue startUs p.2 = true

/-- The causes of the steps of a timely run, read off the run that leads to each of them. -/
theorem cause_eq (info : DeviceInfo) (startUs : U64) (ops : List Op) (htime : Timely startUs ops) :
    ∀ p ∈ sinceReport info startUs ops,
      hasFlag (p.2.1.addedReasons p.2.2) reasonConfigChanged = settlesChange p ∧
      hasFlag (p.2.1.addedReasons p.2.2) reasonPeriodic = findsPeriodicDue startUs p.2 := by
  intro p hp
  obtain ⟨js, i, ⟨rest, rfl⟩, rfl⟩ := Lib.mem_withPast_steps (Lib.mem_of_mem_since hp)
  obtain ⟨_, _, _, _, hconfig, hperiodic⟩ :=
    hasFlag_addedReasons (Lib.run step (start info startUs) js) i
  refine ⟨?_, hperiodic.trans ?_⟩
  · rw [hconfig, configChanged_run, settlesChange]
  · cases i with
    | task nowUs inputs =>
      rw [List.append_assoc] at htime
      exact periodicDue_iff info htime
    | _ => rfl

/-- Every reason bit of a report stands for something that happened since the previous report. -/
theorem reasons_since_last_report (info : DeviceInfo) (startUs : U64) (ops : List Op)
    (htime : Timely startUs ops) (op : Op) (r : Sent)
    (hc : (Lib.run step (start info startUs) ops).committed op = some r) :
    ReasonOf startUs (sinceReport info startUs ops) r.status := by
  obtain ⟨t, accepted, rfl, rfl, hready, _⟩ := committed_eq_some hc
  have hpend := pendingReasons_run info startUs ops
  have hqueued := queued_of_overflowed info startUs ops
  have hcause := cause_eq info startUs ops htime
  change ∀ f, _ = (sinceReport info startUs ops).any _ at hpend
  generalize Lib.run step (start info startUs) ops = d at *
  generalize sinceReport info startUs ops = recent at *
  have hbit : ∀ (f : U8) (cause : List (Device × Op) × (Device × Op) → Bool),
      hasFlag reasonLevelChanged f = false →
      (∀ p ∈ recent, hasFlag (p.2.1.addedReasons p.2.2) f = cause p) →
      (hasFlag d.engine.reportReason f = true ↔ ∃ p ∈ recent, cause p = true) := by
    intro f cause hf hp
    rw [hasFlag_reportReason, hpend, hf, Bool.and_false, Bool.or_false, List.any_eq_true]
    exact exists_congr fun p => and_congr_right fun hmem => by rw [hp p hmem]
  have hnone : ∀ f, (∀ (d : Device) op, hasFlag (d.addedReasons op) f = false) →
      hasFlag d.engine.pendingReasons f = false := by
    intro f hf
    rw [hpend, List.any_eq_false]
    exact fun p _ => by simp [hf]
  exact
    { nonzero := reportReason_ne_zero hready hqueued
      hostRequest := by
        rw [report, hasFlag_reportReason, hnone _ fun d op => (hasFlag_addedReasons d op).1]
        simp [show hasFlag reasonLevelChanged reasonHostRequest = false by decide]
      levelChanged := by
        rw [report, hasFlag_reportReason, hnone _ fun d op => (hasFlag_addedReasons d op).2.1]
        simp [show hasFlag reasonLevelChanged reasonLevelChanged = true by decide, List.length_pos_iff]
      outputApplied := hbit _ _ (by decide) fun p _ => (hasFlag_addedReasons p.2.1 p.2.2).2.2.1
      outputReset := hbit _ _ (by decide) fun p _ => (hasFlag_addedReasons p.2.1 p.2.2).2.2.2.1
      configChanged := hbit _ _ (by decide) fun p hp => (hcause p hp).1
      periodic := hbit _ _ (by decide) fun p hp => (hcause p hp).2 }

/-- A command and a silent second on a board without pins. -/
theorem reasons_since_last_report_run :
    let ops := [Op.output (List.replicate 8 0), .task 1000000 0]
    ∃ r, (Lib.run step (start (sampleInfo 0) 0) ops).committed (.send 1000000 true) = some r ∧
      r.status.reason = reasonOutputApplied ||| reasonPeriodic ∧
      ReasonOf 0 (sinceReport (sampleInfo 0) 0 ops) r.status :=
  ⟨⟨1000000, ⟨0, 0x0A, 0, 0, 0, 0, 1000000, []⟩, blankConfig⟩, by decide +kernel, by decide,
    reasons_since_last_report (sampleInfo 0) 0 _ (by decide) (.send 1000000 true) _ (by decide +kernel)⟩

end Device

end Hidpin.Firmware
