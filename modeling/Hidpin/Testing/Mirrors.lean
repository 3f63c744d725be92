import Hidpin.Firmware.Turns
import Hidpin.System.Missed
import Hidpin.System.Wire
import Hidpin.Testing.Levels

/-! The simulated board against the firmware: what the state of the board says of an engine, and what a send
    attempt, a turn of the loop, an output command and a suspend do to both. -/

namespace Hidpin.Testing
open Host (PinConfig StatusReport gpioCount)
open Firmware (Device Op Engine Gpio hasBit Low modeIsInput modeOutput inputMask outputMask)
open Firmware.Device (Timed)
open Hidpin.System (Move hostReport)

/-- The information of the board as the firmware holds it. -/
def picoInfo : Firmware.DeviceInfo := ⟨0, 1, 0, 1, picoAvailable, 0, 0, 0, none⟩

/-- A report but for its time. -/
def untimed (r : StatusReport) : StatusReport := { r with timestampUs := 0 }

/-- An event of the engine as the host reads it in a report assembled at `nowUs`. -/
def eventAt (nowUs : U64) (ev : Firmware.EdgeEvent) : Host.EdgeEvent :=
  ⟨ev.gpio.toU8, ev.level, Firmware.eventAge nowUs ev.startUs⟩

theorem sent_send {s : BoardState} (h : s.overflow = false) (reason : U8) (events : List Host.EdgeEvent) :
    (s.send reason events).sent.map untimed =
      s.sent.map untimed ++ [untimed (s.status reason events s.nextSeq 0)] := by
  have hsent : (s.send reason events).sent = s.sent ++
      [{ s with clockUs := s.clockUs + 1000 }.status reason events s.nextSeq
        (if s.overflow then Host.StatusFlags.overflow else 0)] := rfl
  rw [hsent, h, List.map_append, List.map_singleton]
  simp [untimed, BoardState.status]

/-! ### The relation -/

/-- The device is in the state the board pretends, between two settles; `reasons` and `events` are what it
    has still to report. -/
structure Mirrors (reasons : U8) (events : List Firmware.EdgeEvent) (s : BoardState) (d : Device) :
    Prop where
  inv : d.Inv
  timed : Timed d.engine
  steady : Engine.Steady s.inputs d.engine
  reasons : d.engine.pendingReasons = reasons
  events : d.engine.queue.toList = events
  room : d.engine.queue.overflowed = false
  info : d.engine.info = picoInfo
  config : s.config.toFirmware = d.engine.config
  result : s.result.code = d.engine.result
  resultGpio : s.resultGpio = d.engine.resultGpio
  requestId : s.requestId = d.engine.requestId
  input : ∀ n, (s.config n).isMonitored = true → hasBit s.levels n = hasBit s.inputs n
  output : ∀ n, (s.config n).isOutput = true → hasBit s.levels n = hasBit d.engine.outputLevels n
  unused : ∀ n, (s.config n).isMonitored = false → (s.config n).isOutput = false → hasBit s.levels n = false
  low : Low s.levels
  overflow : s.overflow = false
  nextSeq : s.nextSeq = d.engine.nextSeq
  lastSeq : s.lastSeq = if d.engine.hasSent then d.engine.lastSeq else 0
  sent : s.sent.map untimed = d.sent.map fun r => untimed (hostReport r.status)

/-- The board without the fields the firmware has no counterpart of, and without the reports it sent. -/
def BoardState.core (s : BoardState) : BoardState :=
  { s with
    path := ""
    powered := false
    openError := none
    info := BoardState.new.info
    clockUs := 0
    handles := []
    queues := fun _ => .new
    opened := 0
    sent := [] }

namespace Mirrors
variable {reasons : U8} {events : List Firmware.EdgeEvent} {s : BoardState} {d : Device}

theorem congr (h : Mirrors reasons events s d) {s' : BoardState} (hcore : s'.core = s.core)
    (hsent : s'.sent.map untimed = s.sent.map untimed) : Mirrors reasons events s' d := by
  have hconfig : s'.config = s.config := (congrArg BoardState.config hcore :)
  have hinputs : s'.inputs = s.inputs := (congrArg BoardState.inputs hcore :)
  have hlevels : s'.levels = s.levels := (congrArg BoardState.levels hcore :)
  exact
    { inv := h.inv
      timed := h.timed
      steady := by rw [hinputs]; exact h.steady
      reasons := h.reasons
      events := h.events
      room := h.room
      info := h.info
      config := by rw [hconfig]; exact h.config
      result := (congrArg (fun s => s.result.code) hcore :).trans h.result
      resultGpio := (congrArg BoardState.resultGpio hcore :).trans h.resultGpio
      requestId := (congrArg BoardState.requestId hcore :).trans h.requestId
      input := by rw [hconfig, hlevels, hinputs]; exact h.input
      output := by rw [hconfig, hlevels]; exact h.output
      unused := by rw [hconfig, hlevels]; exact h.unused
      low := by rw [hlevels]; exact h.low
      overflow := (congrArg BoardState.overflow hcore :).trans h.overflow
      nextSeq := (congrArg BoardState.nextSeq hcore :).trans h.nextSeq
      lastSeq := (congrArg BoardState.lastSeq hcore :).trans h.lastSeq
      sent := hsent.trans h.sent }

theorem masks (h : Mirrors reasons events s d) :
    d.engine.monitored = s.config.monitoredMask ∧ d.engine.outputs = s.config.outputsMask := by
  have hpublished : d.published = d.engine.config := (h.inv.settled h.steady.idle).2.2
  rw [monitoredMask_eq, outputsMask_eq, h.config, ← hpublished]
  exact ⟨h.inv.monitored, h.inv.outputs⟩

theorem isMonitored (h : Mirrors reasons events s d) (n : Gpio) :
    (s.config n).isMonitored = modeIsInput (d.engine.config.mode n) := by
  rw [isMonitored_iff, h.config]

theorem not_output (h : Mirrors reasons events s d) {n : Gpio} (hn : (s.config n).isMonitored = true) :
    (s.config n).isOutput = false := by
  have hnot := h.inv.not_output (n := n) (by
    rw [h.masks.1, monitoredMask_eq, Firmware.hasBit_inputMask, ← isMonitored_iff, hn])
  rwa [h.masks.2, hasBit_outputsMask] at hnot

/-- The levels of the board are those of the engine. -/
theorem levels (h : Mirrors reasons events s d) :
    s.levels = d.engine.confirmedLevels ||| d.engine.outputLevels &&& d.engine.outputs := by
  have houtputs : Low d.engine.outputs := by
    rw [h.masks.2, outputsMask_eq]
    exact Firmware.low_outputMask _
  refine eq_of_low h.low (low_or (fun _ hi => Lib.getLsbD_collect_of_le _ hi) (low_and_right _ houtputs))
    fun n => ?_
  rw [Firmware.hasBit_or, Engine.hasBit_confirmedLevels, Firmware.hasBit_and, h.masks.1, h.masks.2,
    monitoredMask_eq, Firmware.hasBit_inputMask, ← isMonitored_iff, hasBit_outputsMask]
  cases hmonitored : (s.config n).isMonitored with
  | true =>
    have hinput : modeIsInput (d.engine.config.mode n) = true := by rw [← h.isMonitored, hmonitored]
    simp [h.input n hmonitored, (h.steady.agree n hinput).1, h.not_output hmonitored]
  | false =>
    cases hout : (s.config n).isOutput with
    | true => simp [h.output n hout]
    | false => simp [h.unused n hmonitored hout]

/-! ### Sending -/

/-- The next report of the device is the one the board sends. -/
theorem report (h : Mirrors reasons events s d) (hfew : events.length ≤ Firmware.eventsPerReport)
    (nowUs : U64) : d.engine.drains = true ∧ untimed (hostReport (d.engine.report nowUs)) =
      untimed (s.status (reasons ||| if 0 < events.length then Host.Reason.levelChanged else 0)
        (events.map (eventAt nowUs)) s.nextSeq 0) := by
  have hdrains : d.engine.drains = true := decide_eq_true (by rw [h.events]; exact hfew)
  have hcarried : d.engine.carried = events := by
    rw [Engine.carried, h.events, List.take_of_length_le hfew]
  have hreflected : d.engine.reflected = d.engine.confirmedLevels := by
    rw [Engine.reflected, if_pos hdrains]
    refine eq_of_low (low_and_left (fun _ hi => Lib.getLsbD_collect_of_le _ hi) _)
      (fun _ hi => Lib.getLsbD_collect_of_le _ hi) fun n => ?_
    rw [Firmware.hasBit_and, Engine.hasBit_confirmedLevels]
    cases hasBit d.engine.monitored n <;> simp
  have hlevels := h.levels.symm
  rw [h.masks.2] at hlevels
  refine ⟨hdrains, ?_⟩
  simp only [untimed, hostReport, Engine.report, BoardState.status, Engine.reportReason, hcarried,
    h.reasons, hdrains, h.room, hreflected, hlevels, h.masks.1, h.masks.2, h.nextSeq, List.map_map]
  rfl

/-- Both send what there is to report. -/
theorem send (h : Mirrors reasons events s d) (hfew : events.length ≤ Firmware.eventsPerReport)
    (hready : reasons ≠ 0 ∨ events ≠ []) (nowUs : U64) :
    Mirrors 0 [] (s.send (reasons ||| if 0 < events.length then Host.Reason.levelChanged else 0)
      (events.map (eventAt nowUs))) (d.step (.send nowUs true)) := by
  obtain ⟨hdrains, hreport⟩ := h.report hfew nowUs
  have hpending := d.pendingReasons_step (.send nowUs true)
  have hsent := d.sent_step (.send nowUs true)
  rcases d.send_cases nowUs with ⟨hc, he⟩ | ⟨hc, he, hnot⟩
  · rw [Device.handsOver, hc] at hpending
    rw [hc] at hsent
    refine
      { inv := Device.step_inv d _ h.inv
        timed := Device.timed_step d _ h.timed
        steady := h.steady.send nowUs true
        reasons := hpending
        events := ?_
        room := ?_
        sent := ?_
        info := by rw [he]; exact h.info
        config := by rw [he]; exact h.config
        result := by rw [he]; exact h.result
        resultGpio := by rw [he]; exact h.resultGpio
        requestId := by rw [he]; exact h.requestId
        input := h.input
        output := by rw [he]; exact h.output
        unused := h.unused
        low := h.low
        overflow := rfl
        nextSeq := by rw [he]; exact congrArg (· + 1) h.nextSeq
        lastSeq := by rw [he]; exact h.nextSeq }
    · rw [he, Device.toList_handOver, h.events, List.drop_eq_nil_iff]
      exact hfew
    · rw [he]
      simp only [Engine.handOver, hdrains, Bool.not_true, Bool.and_false]
    · rw [sent_send h.overflow, hsent, Option.toList_some, List.map_append, List.map_singleton,
        hreport, h.sent]
  · rw [Engine.reportReady, decide_eq_false_iff_not, not_not, h.reasons] at hnot
    have hnil : events = [] := by
      rw [← h.events]
      exact List.eq_nil_of_length_eq_zero (by rw [Firmware.EventQueue.length_toList, hnot.2.1]; rfl)
    rcases hready with hready | hready
    · exact absurd hnot.1 hready
    · exact absurd hnil hready

/-! ### Requests of the host and turns of the loop -/

/-- The engine without the fields that an output command, a suspend and a turn of the loop with nothing to do
    change. -/
def requestCore (e : Engine) : Engine :=
  { e with
    pendingReasons := 0
    outputLevels := 0
    activity := 0
    hw := []
    staged := false
    stagedEvents := 0
    stagedReasons := 0
    stagedOverflow := false
    stagedReportedLevels := 0 }

/-- An operation that changes these fields only, while the board changes its levels. -/
theorem request (h : Mirrors reasons events s d) {op : Op} (hsent : (d.step op).sent = d.sent)
    (hcore : requestCore (d.step op).engine = requestCore d.engine) {levels : U32} (hlow : Low levels)
    (hinput : ∀ n, (s.config n).isMonitored = true → hasBit levels n = hasBit s.levels n)
    (houtput : ∀ n, (s.config n).isOutput = true →
      hasBit levels n = hasBit (d.step op).engine.outputLevels n)
    (hunused : ∀ n, (s.config n).isMonitored = false → (s.config n).isOutput = false →
      hasBit levels n = hasBit s.levels n) :
    Mirrors (d.step op).engine.pendingReasons events { s with levels } (d.step op) where
  inv := Device.step_inv d _ h.inv
  timed := Device.timed_step d _ h.timed
  steady := by
    have hidle : (d.step op).engine.settleActive = d.engine.settleActive :=
      (congrArg Engine.settleActive hcore :)
    have hdebounce : (d.step op).engine.debounce = d.engine.debounce := (congrArg Engine.debounce hcore :)
    have hconfig : (d.step op).engine.config = d.engine.config := (congrArg Engine.config hcore :)
    refine ⟨hidle.trans h.steady.idle, fun n hn => ?_⟩
    rw [hdebounce]
    exact h.steady.agree n (by rw [← hconfig]; exact hn)
  reasons := rfl
  events := (congrArg (fun e => e.queue.toList) hcore).trans h.events
  room := (congrArg (fun e => e.queue.overflowed) hcore).trans h.room
  info := (congrArg Engine.info hcore).trans h.info
  config := h.config.trans (congrArg Engine.config hcore).symm
  result := h.result.trans (congrArg Engine.result hcore).symm
  resultGpio := h.resultGpio.trans (congrArg Engine.resultGpio hcore).symm
  requestId := h.requestId.trans (congrArg Engine.requestId hcore).symm
  input n hn := (hinput n hn).trans (h.input n hn)
  output := houtput
  unused n hn hn' := (hunused n hn hn').trans (h.unused n hn hn')
  low := hlow
  overflow := h.overflow
  nextSeq := h.nextSeq.trans (congrArg Engine.nextSeq hcore).symm
  lastSeq := h.lastSeq.trans (congrArg (fun e => if e.hasSent then e.lastSeq else 0) hcore).symm
  sent := by rw [hsent]; exact h.sent

/-- The board stays the same. -/
theorem idle (h : Mirrors reasons events s d) (op : Op) (hsent : (d.step op).sent = d.sent)
    (hcore : requestCore (d.step op).engine = requestCore d.engine)
    (hlevels : (d.step op).engine.outputLevels = d.engine.outputLevels) :
    Mirrors (d.step op).engine.pendingReasons events s (d.step op) :=
  h.request hsent hcore h.low (fun _ _ => rfl) (fun n hn => by rw [hlevels]; exact h.output n hn)
    fun _ _ _ => rfl

/-- A turn of the loop that finds nothing due leaves what there is to report. -/
theorem task (h : Mirrors reasons events s d) {nowUs : U64} (hdue : d.engine.periodicDue nowUs = false)
    (inputs : U32) : Mirrors reasons events s (d.step (.task nowUs inputs)) := by
  have he : (d.step (.task nowUs inputs)).engine = d.engine := by
    rw [Device.step, h.steady.task_eq, hdue, if_neg Bool.false_ne_true]
  have hidle := h.idle (.task nowUs inputs) rfl (by rw [he]) (by rw [he])
  rwa [he, h.reasons] at hidle

theorem task_due (h : Mirrors reasons events s d) {nowUs : U64} (hdue : d.engine.periodicDue nowUs = true)
    (inputs : U32) : Mirrors (reasons ||| Firmware.reasonPeriodic) events s
      (d.step (.task nowUs inputs)) := by
  have he : (d.step (.task nowUs inputs)).engine =
      { d.engine with pendingReasons := d.engine.pendingReasons ||| Firmware.reasonPeriodic } := by
    rw [Device.step, h.steady.task_eq, hdue, if_pos rfl]
  have hidle := h.idle (.task nowUs inputs) rfl (by rw [he]; rfl) (by rw [he])
  rwa [he, h.reasons] at hidle

/-- With nothing to report a send attempt does nothing. -/
theorem send_nothing (h : Mirrors 0 [] s d) (nowUs : U64) : Mirrors 0 [] s (d.step (.send nowUs true)) := by
  have hready : d.engine.reportReady = false := by
    have hcount : d.engine.queue.count = 0 := by
      have hlen := d.engine.queue.length_toList
      rw [h.events, List.length_nil] at hlen
      exact BitVec.eq_of_toNat_eq hlen.symm
    rw [Engine.reportReady, decide_eq_false_iff_not, not_not]
    exact ⟨h.reasons, hcount, h.room⟩
  have hsent := d.sent_step (.send nowUs true)
  rcases d.send_cases nowUs with ⟨hc, _⟩ | ⟨hc, he, _⟩
  · rw [Device.committed, Engine.sendStatusReport_eq, hready] at hc
    cases hc
  · rw [hc, Option.toList_none, List.append_nil] at hsent
    have hidle := h.idle (.send nowUs true) hsent (by rw [he]; rfl) (by rw [he]; rfl)
    rw [he] at hidle
    have hreasons : d.engine.stage.pendingReasons = 0 := h.reasons
    rwa [hreasons] at hidle

/-! ### Output commands and suspends -/

theorem decodeOutput_eq (p : List U8) :
    (Host.decodeOutput p).toOption = Firmware.outputDecode p := by
  rw [Host.decodeOutput, Firmware.outputDecode]
  split_ifs <;> rfl

/-- An output command of the right length. -/
theorem output_applied (h : Mirrors 0 [] s d) {p : List U8} {mask value : U32}
    (hp : Host.decodeOutput p = .ok (mask, value)) :
    Mirrors Firmware.reasonOutputApplied []
      { s with
        levels := s.levels &&& ~~~(mask &&& s.config.outputsMask) |||
          value &&& (mask &&& s.config.outputsMask) }
      (d.step (.output p)) := by
  have hdecode : Firmware.outputDecode p = some (mask, value) := by rw [← decodeOutput_eq, hp]; rfl
  have hmask : mask &&& Firmware.outputMask d.engine.config = mask &&& s.config.outputsMask := by
    rw [outputsMask_eq, h.config]
  have he : (d.step (.output p)).engine =
      { d.engine with
        activity := d.engine.activity + 1
        outputLevels := (d.engine.outputLevels &&& ~~~(mask &&& s.config.outputsMask)) |||
          (value &&& (mask &&& s.config.outputsMask))
        hw := if mask &&& s.config.outputsMask ≠ 0#32 then
            d.engine.hw ++ [.writeOutputs (mask &&& s.config.outputsMask)
              (value &&& (mask &&& s.config.outputsMask))]
          else d.engine.hw
        pendingReasons := d.engine.pendingReasons ||| Firmware.reasonOutputApplied } := by
    simp only [Device.step, Engine.output, hdecode, hmask]
  have hlow : Low s.config.outputsMask := by
    rw [outputsMask_eq]
    exact Firmware.low_outputMask _
  have hpending : (d.step (.output p)).engine.pendingReasons = Firmware.reasonOutputApplied := by
    rw [he]
    exact (congrArg (· ||| Firmware.reasonOutputApplied) h.reasons).trans (BitVec.zero_or)
  rw [← hpending]
  refine h.request rfl (by rw [he]; rfl) ?_ (fun n hn => ?_) (fun n hn => ?_) fun n _ hn => ?_
  · exact low_or (low_and_left h.low _) (low_and_right _ (low_and_right _ hlow))
  · have hnot : (s.config n).isOutput = false := h.not_output hn
    simp [hasBit_outputsMask, hnot]
  · rw [he]
    simp [hasBit_outputsMask, hn, h.output n hn]
  · simp [hasBit_outputsMask, hn]

/-- One of another length. -/
theorem output_ignored (h : Mirrors 0 [] s d) {p : List U8} {e : Host.Error}
    (hp : Host.decodeOutput p = .error e) : Mirrors 0 [] s (d.step (.output p)) := by
  have hdecode : Firmware.outputDecode p = none := by rw [← decodeOutput_eq, hp]; rfl
  have he : (d.step (.output p)).engine = d.engine := by simp only [Device.step, Engine.output, hdecode]
  have hidle := h.idle (.output p) rfl (by rw [he]) (by rw [he])
  rwa [he, h.reasons] at hidle

/-- A suspend or a reset while pins are outputs. -/
theorem reset (h : Mirrors 0 [] s d) (hout : s.config.outputsMask ≠ 0) :
    Mirrors Firmware.reasonOutputReset [] s.resetOutputs.1 (d.step .usbReset) := by
  have hmask : Firmware.outputMask d.engine.config = s.config.outputsMask := by rw [outputsMask_eq, h.config]
  have he : (d.step .usbReset).engine =
      { d.engine with
        outputLevels := (d.engine.outputLevels &&& ~~~s.config.outputsMask) |||
          Firmware.initialOutputLevels d.engine.config
        hw :=
          d.engine.hw ++ [.writeOutputs s.config.outputsMask (Firmware.initialOutputLevels d.engine.config)]
        pendingReasons := d.engine.pendingReasons ||| Firmware.reasonOutputReset } := by
    simp only [Device.step, Engine.usbReset, hmask]
    exact if_neg hout
  have hpending : (d.step .usbReset).engine.pendingReasons = Firmware.reasonOutputReset := by
    rw [he]
    exact (congrArg (· ||| Firmware.reasonOutputReset) h.reasons).trans (BitVec.zero_or)
  rw [← hpending]
  refine h.request rfl (by rw [he]; rfl) (low_resetOutputs s.config h.low) (fun n hn => ?_) (fun n hn => ?_)
    fun n _ hn => ?_
  · rw [hasBit_resetOutputs, h.not_output hn, if_neg Bool.false_ne_true]
  · have hmode : d.engine.config.mode n = modeOutput := by
      rw [isOutput_iff, h.config, decide_eq_true_iff] at hn
      exact hn
    have hparam : d.engine.config.param n = (s.config n).param := by rw [← h.config]; rfl
    rw [hasBit_resetOutputs, hn, he]
    simp [hasBit_outputsMask, hn, hmode, hparam]
  · rw [hasBit_resetOutputs, hn, if_neg Bool.false_ne_true]

/-- Without outputs there is nothing to reset. -/
theorem reset_nothing (h : Mirrors 0 [] s d) (hout : s.config.outputsMask = 0) :
    s.resetOutputs.1 = s ∧ Mirrors 0 [] s (d.step .usbReset) := by
  have hmask : Firmware.outputMask d.engine.config = 0 := by rw [← h.config, ← outputsMask_eq, hout]
  have he : (d.step .usbReset).engine = d.engine := by
    simp only [Device.step, Engine.usbReset, hmask]
    exact if_pos rfl
  have hidle := h.idle (.usbReset) rfl (by rw [he]) (by rw [he])
  rw [he, h.reasons] at hidle
  refine ⟨?_, hidle⟩
  have hnone : Host.maskToGpios 0 = [] := by decide
  simp only [BoardState.resetOutputs, hout, hnone, List.foldl_nil]

end Mirrors

end Hidpin.Testing
