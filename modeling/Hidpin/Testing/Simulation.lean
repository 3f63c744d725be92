import Hidpin.Firmware.Loop
import Hidpin.Lib.Simulation
import Hidpin.Testing.Edges

/-! The simulated board is simulated by the firmware: whatever a test and a program do to the board, there is
    a run of the firmware with the same electrical values and the same requests that sends the same reports
    and answers the same. -/

namespace Hidpin.Testing
open Host (PinConfig StatusReport)
open Firmware (Device Op Engine Gpio hasBit modeOutput)
open Hidpin.System (Move hostReport)

/-! ### The run of the firmware -/

/-- When an act comes: a millisecond after the latest report. -/
def nextUs (d : Device) : U64 := d.engine.lastSentUs + 1000

/-- A Set, and the turn that ends the settle. -/
def setOps (s : BoardState) (d : Device) (payload : List U8) : List Op :=
  .setPinConfig payload (nextUs d) :: turn s.inputs (nextUs d + 1000)

/-- What happens to the firmware meanwhile. A report through a handle that fails does not arrive, and the
    firmware never sees one of an unknown kind. -/
def ops (s : BoardState) (d : Device) : Act → List Op
  | .setInput n high =>
    if (s.config n).isMonitored ∧ hasBit s.inputs n ≠ high then
      .onEdge n.toU8 high (nextUs d) :: turn (s.putInput n high).inputs (nextUs d + s.debounceUs n)
    else []
  | .periodic => turn s.inputs (d.engine.lastSentUs + 1000000)
  | .skipReports n => skippedTurns s.inputs d.engine.lastSentUs n.toNat
  | .suspend => .usbReset :: turn s.inputs (nextUs d)
  | .reenumerate => .usbReset :: turn s.inputs (nextUs d)
  | .writePinConfig config => setOps s d (Host.PinConfigReport.encode ⟨.ok, Host.resultGpioNone, 1, config⟩)
  | .write h report =>
    match s.check h with
    | .error _ => []
    | .ok () =>
      if report.head? ≠ some Host.reportIdOutput then [] else .output report.tail :: turn s.inputs (nextUs d)
  | .sendFeatureReport h report =>
    match s.check h with
    | .error _ => []
    | .ok () => if report.head? ≠ some Host.reportIdPinConfig then [] else setOps s d report.tail
  | _ => []

/-- A board that is powered starts the firmware, which reads its pins a millisecond later. Without power
    nothing runs. -/
def follow (s : BoardState) (d : Device) (act : Act) : List Move :=
  if s.powered then (ops s d act).map .op
  else
    match act with
    | .plug _ => [.restart picoInfo 0, .op (.task 1000 s.inputs)]
    | _ => []

/-- How long the firmware takes at most, in µs. -/
def Act.durationUs : Act → ℕ
  | .setInput _ _ => 256000
  | .periodic => 1000000
  | .skipReports n => n.toNat * 1000000
  | .suspend => 1000
  | .reenumerate => 1000
  | .writePinConfig _ => 2000
  | .write _ _ => 1000
  | .sendFeatureReport _ _ => 2000
  | _ => 0

/-- Whether the firmware can do the like. A board does not change its protocol version; an event that was
    lost comes after 32 others, which the simulated board does not send; a report was sent before the host
    can miss it; and after a USB reset a board with outputs reports OUTPUT_RESET. -/
def BoardState.possible (s : BoardState) : Act → Bool
  | .setProtocolVersion version => decide (version = Host.protocolVersion)
  | .loseInput n _ => !(s.config n).isMonitored
  | .skipReports n => decide (n ≠ 0)
  | .reenumerate => decide (s.config.outputsMask = 0)
  | _ => true

/-! ### Time -/

theorem run_ops (d : Device) (ops : List Op) :
    Lib.run Move.apply d (ops.map .op) = Lib.run Device.step d ops := by
  induction ops generalizing d with
  | nil => rfl
  | cons op ops ih => exact ih (d.step op)

/-- After some calls without a send attempt and a turn, the latest report is the turn's or an earlier one. -/
theorem within_turn {d : Device} {c n : ℕ} (h : d.engine.lastSentUs.toNat + (c + n) < 2 ^ 64)
    (before : List Op) (hbefore : ∀ op ∈ before, ∀ nowUs accepted, op ≠ .send nowUs accepted) (wait : U64)
    (hwait : wait.toNat ≤ c) (inputs : U32) :
    (Lib.run Device.step d
      (before ++ turn inputs (d.engine.lastSentUs + wait))).engine.lastSentUs.toNat + n < 2 ^ 64 := by
  have hsilent := (Device.run_silent before d hbefore).2
  have htask := (Lib.run Device.step d before).lastSentUs_step (.task (d.engine.lastSentUs + wait) inputs)
  rw [Lib.run_append, turn, Lib.run_cons, Lib.run_cons, Lib.run_nil]
  rcases ((Lib.run Device.step d before).step (.task (d.engine.lastSentUs + wait) inputs)).lastSentUs_send
      (d.engine.lastSentUs + wait) with hsent | ⟨-, hsent⟩
  · rw [hsent, BitVec.toNat_add, Nat.mod_eq_of_lt (by omega)]
    omega
  · have hlast : ((Lib.run Device.step d before).step
        (.task (d.engine.lastSentUs + wait) inputs)).engine.lastSentUs = d.engine.lastSentUs :=
      htask.trans hsilent
    rw [hsent, hlast]
    omega

/-! ### One act -/

/-- The device is in the state the board pretends, and its clock does not wrap in the next `n` µs. -/
def Alongside (n : ℕ) (s : BoardState) (d : Device) : Prop :=
  Mirrors 0 [] s d ∧ d.engine.lastSentUs.toNat + n < 2 ^ 64

namespace Mirrors
variable {s : BoardState} {d : Device} {n : ℕ}

theorem step_set (h : Mirrors 0 [] s d) (hinfo : s.info.available = picoAvailable)
    (htime : d.engine.lastSentUs.toNat + (2000 + n) < 2 ^ 64) (p : List U8) :
    Alongside n (s.writeConfig p) (Lib.run Device.step d (setOps s d p)) := by
  have hwait : nextUs d + 1000 = d.engine.lastSentUs + (1000 + 1000) := BitVec.add_assoc _ _ _
  have hdue : d.engine.periodicDue (nextUs d + 1000) = false := by
    rw [hwait]
    exact not_due (by decide)
  have hinfo' : s.info.available = d.engine.info.available := by rw [hinfo, h.info]; rfl
  refine ⟨by rw [setOps, turn]; exact h.set hinfo' p hdue, ?_⟩
  rw [setOps, hwait]
  exact within_turn htime [.setPinConfig p (nextUs d)] (by simp) (1000 + 1000) (by decide) s.inputs

/-- A suspend or a USB reset. -/
theorem step_reset (h : Mirrors 0 [] s d) (htime : d.engine.lastSentUs.toNat + (1000 + n) < 2 ^ 64) :
    Alongside n s.suspend (Lib.run Device.step d (.usbReset :: turn s.inputs (nextUs d))) := by
  have hwithin := within_turn htime [.usbReset] (by simp) 1000 (by decide) s.inputs
  have hlast : (d.step .usbReset).engine.lastSentUs = d.engine.lastSentUs := d.lastSentUs_step .usbReset
  have hdue : (d.step .usbReset).engine.periodicDue (nextUs d) = false := by
    have hearly : (1000 : U64).toNat < 1000000 := by decide
    rw [nextUs, ← hlast, not_due hearly]
  refine ⟨?_, by rw [nextUs]; exact hwithin⟩
  by_cases hout : s.config.outputsMask = 0
  · obtain ⟨hsame, hreset⟩ := h.reset_nothing hout
    have hsuspend : s.suspend = s.resetOutputs.1 := if_neg (by simp [hout])
    rw [hsuspend, hsame]
    exact (hreset.task hdue s.inputs).send_nothing (nextUs d)
  · have hsuspend : s.suspend = s.resetOutputs.1.send Host.Reason.outputReset [] :=
      if_pos (decide_eq_true hout)
    rw [hsuspend]
    exact ((h.reset hout).task hdue s.inputs).send (Nat.zero_le _) (Or.inl (by decide)) (nextUs d)

/-- An electrical change. -/
theorem step_setInput (h : Mirrors 0 [] s d) (hpowered : s.powered = true)
    (htime : d.engine.lastSentUs.toNat + (256000 + n) < 2 ^ 64) (g : Gpio) (high : Bool) :
    Alongside n (s.setInput g high) (Lib.run Device.step d (ops s d (.setInput g high))) := by
  by_cases hchange : (s.config g).isMonitored = true ∧ hasBit s.inputs g ≠ high
  · have hparam := (s.config g).param.isLt
    have hwait : nextUs d + s.debounceUs g = d.engine.lastSentUs + (1000 + s.debounceUs g) :=
      BitVec.add_assoc _ _ _
    have hpassed : (1000 + s.debounceUs g).toNat = 1000 + (s.config g).param.toNat * 1000 := by
      rw [BitVec.toNat_add, toNat_debounceUs, show (1000 : U64).toNat = 1000 from rfl,
        Nat.mod_eq_of_lt (by omega)]
    have hdue : d.engine.periodicDue (nextUs d + s.debounceUs g) = false := by
      rw [hwait]
      exact not_due (by omega)
    have hnext : (nextUs d).toNat = d.engine.lastSentUs.toNat + 1000 := by
      rw [nextUs, BitVec.toNat_add, show (1000 : U64).toNat = 1000 from rfl, Nat.mod_eq_of_lt (by omega)]
    have hwithin := within_turn htime [.onEdge g.toU8 high (nextUs d)] (by simp) (1000 + s.debounceUs g)
      (by omega)
      (s.putInput g high).inputs
    rw [ops, if_pos hchange]
    refine ⟨?_, by rw [hwait]; exact hwithin⟩
    exact h.setInput hpowered hchange.1 hchange.2 hdue (by omega) _
  · have hsame : (s.config g).isMonitored = true → hasBit s.inputs g = high := fun hmonitored =>
      not_not.mp fun hne => hchange ⟨hmonitored, hne⟩
    have hkept : s.setInput g high = s.putInput g high := by
      refine if_pos ?_
      by_cases hmonitored : (s.config g).isMonitored = true
      · have hlevel : (s.putInput g high).levels &&& gpioBit g =
            (s.putInput g high).inputs &&& gpioBit g := by
          rw [and_bit_eq_iff, hasBit_putInput, if_pos rfl, ← hsame hmonitored]
          exact h.input g hmonitored
        simp [hlevel]
      · have hunmonitored : ((s.putInput g high).config g).isMonitored = false :=
          Bool.eq_false_iff.mpr hmonitored
        simp [hunmonitored]
    rw [ops, if_neg hchange, Lib.run_nil, hkept]
    exact ⟨h.putInput hsame, by omega⟩

/-- An output command. -/
theorem step_write (h : Mirrors 0 [] s d) (htime : d.engine.lastSentUs.toNat + (1000 + n) < 2 ^ 64) (g : ℕ)
    (report : List U8) :
    Alongside n (s.write g report).2 (Lib.run Device.step d (ops s d (.write g report))) := by
  have hsame : Alongside n s d := ⟨h, by omega⟩
  cases hcheck : s.check g with
  | error e => simpa only [BoardState.write, ops, hcheck, Lib.run_nil] using hsame
  | ok u =>
    by_cases hid : report.head? ≠ some Host.reportIdOutput
    · simpa only [BoardState.write, ops, hcheck, if_pos hid, Lib.run_nil] using hsame
    · have hwithin := within_turn htime [.output report.tail] (by simp) 1000 (by decide) s.inputs
      have hlast : (d.step (.output report.tail)).engine.lastSentUs = d.engine.lastSentUs :=
        d.lastSentUs_step (.output report.tail)
      have hdue : (d.step (.output report.tail)).engine.periodicDue (nextUs d) = false := by
        have hearly : (1000 : U64).toNat < 1000000 := by decide
        rw [nextUs, ← hlast, not_due hearly]
      simp only [BoardState.write, ops, hcheck, if_neg hid]
      refine ⟨?_, by rw [nextUs]; exact hwithin⟩
      cases hdecode : Host.decodeOutput report.tail with
      | error e => exact ((h.output_ignored hdecode).task hdue s.inputs).send_nothing (nextUs d)
      | ok command =>
        exact ((h.output_applied hdecode).task hdue s.inputs).send (Nat.zero_le _)
          (Or.inl (by decide)) (nextUs d)

/-- A Set of a program. -/
theorem step_sendFeatureReport (h : Mirrors 0 [] s d) (hinfo : s.info.available = picoAvailable)
    (htime : d.engine.lastSentUs.toNat + (2000 + n) < 2 ^ 64) (g : ℕ) (report : List U8) :
    Alongside n (s.sendFeatureReport g report).2
      (Lib.run Device.step d (ops s d (.sendFeatureReport g report))) := by
  have hsame : Alongside n s d := ⟨h, by omega⟩
  cases hcheck : s.check g with
  | error e => simpa only [BoardState.sendFeatureReport, ops, hcheck, Lib.run_nil] using hsame
  | ok u =>
    by_cases hid : report.head? ≠ some Host.reportIdPinConfig
    · simpa only [BoardState.sendFeatureReport, ops, hcheck, if_pos hid, Lib.run_nil] using hsame
    · simp only [BoardState.sendFeatureReport, ops, hcheck, if_neg hid]
      exact h.step_set hinfo htime report.tail

theorem step_periodic (h : Mirrors 0 [] s d) (htime : d.engine.lastSentUs.toNat + (1000000 + n) < 2 ^ 64) :
    Alongside n s.periodic (Lib.run Device.step d (turn s.inputs (d.engine.lastSentUs + 1000000))) :=
  ⟨h.periodic (due _) s.inputs, within_turn htime [] (by simp) 1000000 (by decide) s.inputs⟩

theorem step_skip (h : Mirrors 0 [] s d) {k : U16} (hk : k ≠ 0)
    (htime : d.engine.lastSentUs.toNat + (k.toNat * 1000000 + n) < 2 ^ 64) :
    Alongside n (s.skipReports k)
      (Lib.run Device.step d (skippedTurns s.inputs d.engine.lastSentUs k.toNat)) := by
  have hlt := k.isLt
  obtain ⟨m, hm⟩ := Nat.exists_eq_succ_of_ne_zero fun hzero => hk (BitVec.eq_of_toNat_eq hzero)
  obtain ⟨hskipped, hlast⟩ := h.skip s.inputs (k := m) (by omega)
  rw [← Nat.succ_eq_add_one, ← hm] at hskipped hlast
  rw [BitVec.ofNat_toNat, BitVec.setWidth_eq] at hskipped
  refine ⟨hskipped, ?_⟩
  rw [hlast, BitVec.toNat_add, BitVec.toNat_ofNat]
  omega

/-- A USB reset of a board without outputs. -/
theorem step_reenumerate (h : Mirrors 0 [] s d) (hout : s.config.outputsMask = 0)
    (htime : d.engine.lastSentUs.toNat + (1000 + n) < 2 ^ 64) :
    Alongside n s.reenumerate (Lib.run Device.step d (.usbReset :: turn s.inputs (nextUs d))) := by
  obtain ⟨hmirrors, hwithin⟩ := h.step_reset htime
  have hsuspend : s.suspend = s := (if_neg (by simp [hout])).trans (h.reset_nothing hout).1
  have hfailed : s.failHandles.resetOutputs.1 = s.failHandles := by
    have hmirrors' : Mirrors 0 [] s.failHandles d := h.congr rfl rfl
    exact (hmirrors'.reset_nothing hout).1
  rw [hsuspend] at hmirrors
  refine ⟨?_, hwithin⟩
  rw [BoardState.reenumerate, hfailed]
  exact hmirrors.congr rfl rfl

end Mirrors

/-! ### Runs -/

theorem frame_writeConfig (s : BoardState) (p : List U8) :
    (s.writeConfig p).info = s.info ∧ (s.writeConfig p).powered = s.powered := by
  rw [BoardState.writeConfig]
  rcases Host.validatePinConfigPayload p s.info.available with ⟨result, resultGpio, requestId⟩
  dsimp only
  split_ifs with hresult
  · exact ⟨rfl, rfl⟩
  · cases Host.decodePinConfig p with
    | error e => exact ⟨rfl, rfl⟩
    | ok report =>
      dsimp only
      split_ifs
      · exact ⟨rfl, rfl⟩
      · exact ⟨rfl, rfl⟩

/-- Only power changes whether a board is powered, and a possible act leaves its information. -/
theorem frame_step (s : BoardState) (act : Act) (hinfo : s.info = BoardState.new.info)
    (hok : s.possible act = true) : (s.step act).info = BoardState.new.info ∧
      ((s.step act).powered = true → s.powered = true ∨ ∃ path, act = .plug path) := by
  suffices hframe : (s.step act).info = s.info ∧
      ((s.step act).powered = true → s.powered = true ∨ ∃ path, act = .plug path)
        from ⟨hframe.1.trans hinfo, hframe.2⟩
  cases act with
  | plug path =>
    refine ⟨?_, fun _ => Or.inr ⟨path, rfl⟩⟩
    rw [BoardState.step, BoardState.plug]
    split_ifs <;> rfl
  | unplug => exact ⟨rfl, fun hpowered => absurd hpowered Bool.false_ne_true⟩
  | setOpenError e => exact ⟨rfl, Or.inl⟩
  | setProtocolVersion version =>
    obtain rfl : version = Host.protocolVersion := of_decide_eq_true hok
    refine ⟨?_, Or.inl⟩
    rw [BoardState.step, hinfo]
    rfl
  | setInput n high =>
    rw [BoardState.step, BoardState.setInput]
    split_ifs
    · exact ⟨rfl, Or.inl⟩
    · exact ⟨rfl, Or.inl⟩
  | loseInput n high =>
    rw [BoardState.step, BoardState.loseInput]
    split_ifs
    · exact ⟨rfl, Or.inl⟩
    · exact ⟨rfl, Or.inl⟩
  | periodic => exact ⟨rfl, Or.inl⟩
  | skipReports n => exact ⟨rfl, Or.inl⟩
  | suspend =>
    rw [BoardState.step, BoardState.suspend, BoardState.resetOutputs]
    dsimp only
    split_ifs
    · exact ⟨rfl, Or.inl⟩
    · exact ⟨rfl, Or.inl⟩
  | reenumerate => exact ⟨rfl, Or.inl⟩
  | writePinConfig config =>
    obtain ⟨hsame, hpowered⟩ :=
      frame_writeConfig s (Host.PinConfigReport.encode ⟨.ok, Host.resultGpioNone, 1, config⟩)
    exact ⟨hsame, fun h => Or.inl (hpowered.symm.trans h)⟩
  | openHandle =>
    rw [BoardState.step, BoardState.openHandle]
    split_ifs
    · cases s.openError with
      | none => exact ⟨rfl, Or.inl⟩
      | some e => exact ⟨rfl, Or.inl⟩
    · exact ⟨rfl, Or.inl⟩
  | read g len =>
    rw [BoardState.step, BoardState.read]
    split
    · exact ⟨rfl, Or.inl⟩
    · split
      · exact ⟨rfl, Or.inl⟩
      · exact ⟨rfl, Or.inl⟩
  | write g report =>
    rw [BoardState.step, BoardState.write]
    split
    · exact ⟨rfl, Or.inl⟩
    · split_ifs
      · exact ⟨rfl, Or.inl⟩
      · split
        · exact ⟨rfl, Or.inl⟩
        · exact ⟨rfl, Or.inl⟩
  | getFeatureReport g reportId len => exact ⟨rfl, Or.inl⟩
  | sendFeatureReport g report =>
    rw [BoardState.step, BoardState.sendFeatureReport]
    split
    · exact ⟨rfl, Or.inl⟩
    · split_ifs
      · exact ⟨rfl, Or.inl⟩
      · obtain ⟨hsame, hpowered⟩ := frame_writeConfig s report.tail
        exact ⟨hsame, fun h => Or.inl (hpowered.symm.trans h)⟩
  | getInputReport g len => exact ⟨rfl, Or.inl⟩
  | dropHandle g => exact ⟨rfl, Or.inl⟩

/-- While the board is powered, one act and what happens to the firmware meanwhile. -/
theorem alongside_step {n : ℕ} {s : BoardState} {d : Device} {act : Act}
    (h : Alongside (act.durationUs + n) s d) (hpowered : s.powered = true)
    (hinfo : s.info = BoardState.new.info) (hok : s.possible act = true) :
    (s.step act).powered = true → Alongside n (s.step act) (Lib.run Device.step d (ops s d act)) := by
  obtain ⟨hmirrors, htime⟩ := h
  have havailable : s.info.available = picoAvailable := by rw [hinfo]; rfl
  have hlater : d.engine.lastSentUs.toNat + n < 2 ^ 64 := by omega
  intro hstill
  cases act with
  | plug path =>
    have hplug : s.plug path = { s with path } := if_pos hpowered
    rw [BoardState.step, hplug]
    exact ⟨hmirrors.congr rfl rfl, hlater⟩
  | unplug => exact absurd hstill Bool.false_ne_true
  | setOpenError e => exact ⟨hmirrors.congr rfl rfl, hlater⟩
  | setProtocolVersion version => exact ⟨hmirrors.congr rfl rfl, hlater⟩
  | setInput g high => exact hmirrors.step_setInput hpowered htime g high
  | loseInput g high =>
    have hunmonitored : (s.config g).isMonitored = false := by simpa [BoardState.possible] using hok
    have hkept : s.loseInput g high = s.putInput g high := if_neg (by
      rw [show (s.putInput g high).config = s.config from rfl, hunmonitored]
      exact Bool.false_ne_true)
    rw [BoardState.step, hkept]
    exact ⟨hmirrors.putInput fun hmonitored => absurd (hunmonitored.symm.trans hmonitored)
      Bool.false_ne_true, hlater⟩
  | periodic => exact hmirrors.step_periodic htime
  | skipReports k => exact hmirrors.step_skip (of_decide_eq_true hok) htime
  | suspend => exact hmirrors.step_reset htime
  | reenumerate => exact hmirrors.step_reenumerate (of_decide_eq_true hok) htime
  | writePinConfig config =>
    exact hmirrors.step_set havailable htime
      (Host.PinConfigReport.encode ⟨.ok, Host.resultGpioNone, 1, config⟩)
  | openHandle =>
    refine ⟨?_, hlater⟩
    rw [BoardState.step, BoardState.openHandle]
    split_ifs
    cases s.openError with
    | none => exact hmirrors.congr rfl rfl
    | some e => exact hmirrors
  | read g len =>
    refine ⟨?_, hlater⟩
    rw [BoardState.step, BoardState.read]
    split
    · exact hmirrors
    · split
      · exact hmirrors
      · exact hmirrors.congr rfl rfl
  | write g report => exact hmirrors.step_write htime g report
  | getFeatureReport g reportId len => exact ⟨hmirrors, hlater⟩
  | sendFeatureReport g report => exact hmirrors.step_sendFeatureReport havailable htime g report
  | getInputReport g len => exact ⟨hmirrors, hlater⟩
  | dropHandle g => exact ⟨hmirrors.congr rfl rfl, hlater⟩

/-- What holds between the board and the firmware with `n` µs to go. -/
structure Follows (n : ℕ) (s : BoardState) (d : Device) : Prop where
  info : s.info = BoardState.new.info
  time : n < 2 ^ 64
  alongside : s.powered = true → Alongside n s d

theorem Follows.step {n : ℕ} {s : BoardState} {d : Device} {act : Act} (h : Follows (act.durationUs + n) s d)
    (hok : s.possible act = true) : Follows n (s.step act) (Lib.run Move.apply d (follow s d act)) := by
  obtain ⟨hinfo, hstill⟩ := frame_step s act h.info hok
  have htime := h.time
  refine ⟨hinfo, by omega, fun hpowered' => ?_⟩
  by_cases hpowered : s.powered = true
  · have hfollow : follow s d act = (ops s d act).map .op := if_pos hpowered
    rw [hfollow, run_ops]
    exact alongside_step (h.alongside hpowered) hpowered h.info hok hpowered'
  · obtain ⟨path, rfl⟩ := (hstill hpowered').resolve_left hpowered
    have hrun : Lib.run Move.apply d (follow s d (.plug path)) =
        (Device.start picoInfo 0).step (.task 1000 s.inputs) := by
      rw [follow, if_neg hpowered, Lib.run_cons, Lib.run_cons, Lib.run_nil]
      rfl
    have hlast : ((Device.start picoInfo 0).step (.task 1000 s.inputs)).engine.lastSentUs = 0 := by
      rw [Device.lastSentUs_step, Device.start, Engine.init_eq]
      rfl
    rw [hrun]
    refine ⟨mirrors_plug (Bool.eq_false_iff.mpr hpowered) (by rw [h.info]; rfl) path, ?_⟩
    rw [hlast, show (0 : U64).toNat = 0 from rfl]
    omega

/-- A program cannot tell the board from the device, but for the time. -/
structure Resembles (s : BoardState) (d : Device) : Prop where
  sent : s.sent.map untimed = d.sent.map fun r => untimed (hostReport r.status)
  deviceInfo : s.feature Host.reportIdDeviceInfo = some d.engine.getDeviceInfo
  pinConfig : s.feature Host.reportIdPinConfig = some d.engine.getPinConfig
  inputReport : ∀ nowUs, untimed s.inputReport = untimed (hostReport (d.engine.getStatus nowUs))

theorem Mirrors.resembles {s : BoardState} {d : Device} (h : Mirrors 0 [] s d)
    (hinfo : s.info = BoardState.new.info) : Resembles s d where
  sent := h.sent
  deviceInfo := by
    have hencode : BoardState.new.info.encode = Firmware.encodeDeviceInfo picoInfo := by decide +kernel
    rw [Engine.getDeviceInfo, h.info, ← hencode, ← hinfo]
    rfl
  pinConfig := by
    rw [Engine.getPinConfig, ← h.result, ← h.resultGpio, ← h.requestId, ← h.config]
    exact congrArg some
      (Host.PinConfigReport.firmware_encode ⟨s.result, s.resultGpio, s.requestId, s.config⟩).symm
  inputReport nowUs := by
    have hcount : d.engine.queue.count = 0 := by
      have hlen := d.engine.queue.length_toList
      rw [h.events, List.length_nil] at hlen
      exact BitVec.eq_of_toNat_eq hlen.symm
    have hlevels := h.levels.symm
    rw [h.masks.2] at hlevels
    simp only [untimed, hostReport, Engine.getStatus, BoardState.inputReport, BoardState.status,
      h.masks.1, h.masks.2, hlevels, h.lastSeq, hcount]
    rfl

/-- Whatever tests and programs do to the board, there is a run of the firmware with the same electrical
    values and the same requests in which the firmware sends the same reports and answers the same. -/
theorem board_follows_firmware (acts : List Act) (d : Device)
    (hpossible : ∀ x ∈ Lib.steps BoardState.step .new acts, x.1.possible x.2 = true)
    (htime : (acts.map Act.durationUs).sum < 2 ^ 64)
    (hpowered : (Lib.run BoardState.step .new acts).powered = true) :
    Resembles (Lib.run BoardState.step .new acts)
      (Lib.run Move.apply d (Lib.scripts BoardState.step Move.apply follow .new d acts)) := by
  have hstart : Follows ((acts.map Act.durationUs).sum + 0) .new d :=
    ⟨rfl, htime, fun h => absurd h Bool.false_ne_true⟩
  have hend := Lib.simulates (A := fun s act => s.possible act = true) (fun _ _ _ _ => Follows.step) acts
    hstart hpossible
  exact (hend.alongside hpowered).1.resembles hend.info

/-- A program opens the board, hears of a change, makes the pin an output and sets it; then the host suspends
    the bus. -/
def rehearsal (n : Gpio) : List Act :=
  [.plug "/dev/hidraw0", .openHandle, .setInput n false,
    .sendFeatureReport 0 (Host.reportIdPinConfig :: Firmware.Main.onePin modeOutput),
    .write 0 (Host.reportIdOutput :: Host.encodeOutput 3 3), .suspend, .setInput n true, .periodic]

theorem board_follows_firmware_run :
    (Lib.run Move.apply (Device.start picoInfo 0)
      (Lib.scripts BoardState.step Move.apply follow .new (Device.start picoInfo 0) (rehearsal 0))).sent.map
        (fun r => r.status.reason) =
      [Host.Reason.levelChanged, Host.Reason.configChanged, Host.Reason.outputApplied,
        Host.Reason.outputReset, Host.Reason.periodic] := by
  have h := board_follows_firmware (rehearsal 0) (Device.start picoInfo 0) (by decide +kernel) (by decide)
    (by decide +kernel)
  have hreasons := congrArg (fun l => l.map StatusReport.reason) h.sent
  simp only [List.map_map] at hreasons
  refine Eq.trans (Eq.symm hreasons) ?_
  decide +kernel

end Hidpin.Testing
