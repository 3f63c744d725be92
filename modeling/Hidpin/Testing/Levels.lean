import Hidpin.Codec.PinConfig
import Hidpin.Firmware.Invariant
import Hidpin.Testing.Board

/-! The levels of a simulated board, pin by pin: what each function does to the bit of one pin. -/

namespace Hidpin.Testing
open Host (PinConfig PinSetting)
open Firmware (Gpio gpioCount hasBit hasBit_eq Low modeIsInput modeOutput inputMask outputMask)

/-! ### Words -/

@[simp] theorem hasBit_bit (n m : Gpio) : hasBit (gpioBit n) m = decide (m = n) :=
  Firmware.hasBit_gpioBit n m

@[simp] theorem hasBit_ite (c : Prop) [Decidable c] (a b : U32) (n : Gpio) :
    hasBit (if c then a else b) n = if c then hasBit a n else hasBit b n := by
  split_ifs <;> rfl

/-- Words without bits from 30 on are equal when their pins are. -/
theorem eq_of_low {a b : U32} (ha : Low a) (hb : Low b) (h : ∀ n, hasBit a n = hasBit b n) : a = b := by
  refine BitVec.eq_of_getLsbD_eq fun i _ => ?_
  by_cases hi : i < gpioCount
  · have hn := h ⟨i, hi⟩
    rwa [hasBit_eq, hasBit_eq] at hn
  · rw [ha i (by omega), hb i (by omega)]

theorem low_bit (n : Gpio) : Low (gpioBit n) := fun i hi => by
  have hn := n.isLt
  by_cases hw : i < 32
  · rw [gpioBit, show 1#32 <<< n.val = Lib.bit 32 n.val from rfl, Lib.getLsbD_bit hw]
    exact decide_eq_false (by omega)
  · exact BitVec.getLsbD_of_ge _ _ (by omega)

theorem low_or {a b : U32} (ha : Low a) (hb : Low b) : Low (a ||| b) := fun i hi => by
  rw [BitVec.getLsbD_or, ha i hi, hb i hi, Bool.or_self]

theorem low_and_left {a : U32} (ha : Low a) (b : U32) : Low (a &&& b) := fun i hi => by
  rw [BitVec.getLsbD_and, ha i hi, Bool.false_and]

theorem low_and_right {b : U32} (a : U32) (hb : Low b) : Low (a &&& b) := fun i hi => by
  rw [BitVec.getLsbD_and, hb i hi, Bool.and_false]

theorem low_ite {a b : U32} (c : Prop) [Decidable c] (ha : Low a) (hb : Low b) :
    Low (if c then a else b) := by
  split_ifs
  · exact ha
  · exact hb

/-- The word is left alone in the other bits. -/
theorem and_bit_eq_iff {a b : U32} {n : Gpio} :
    a &&& gpioBit n = b &&& gpioBit n ↔ hasBit a n = hasBit b n := by
  constructor
  · intro h
    have hn := congrArg (fun w => hasBit w n) h
    simpa using hn
  · intro h
    refine eq_of_low (low_and_right _ (low_bit n)) (low_and_right _ (low_bit n)) fun m => ?_
    by_cases hm : m = n
    · subst hm
      simpa using h
    · simp [hm]

/-! ### Modes -/

theorem isMonitored_iff (c : PinConfig) (n : Gpio) :
    (c n).isMonitored = modeIsInput (c.toFirmware.mode n) := by
  have hmode : ∀ mode : Host.PinMode, mode.isInput = modeIsInput mode.toU8 :=
    fun mode => by cases mode <;> decide
  exact hmode (c n).mode

theorem isOutput_iff (c : PinConfig) (n : Gpio) :
    (c n).isOutput = decide (c.toFirmware.mode n = modeOutput) := by
  have hmode : ∀ mode : Host.PinMode, decide (mode = .output) = decide (mode.toU8 = modeOutput) :=
    fun mode => by
      cases mode <;> decide
  exact hmode (c n).mode

theorem not_monitored {setting : PinSetting} (h : setting.isOutput = true) :
    setting.isMonitored = false := by
  rw [PinSetting.isOutput, decide_eq_true_iff] at h
  rw [PinSetting.isMonitored, h]
  rfl

/-- The masks of the host and of the firmware. -/
theorem monitoredMask_eq (c : PinConfig) : c.monitoredMask = inputMask c.toFirmware :=
  congrArg (Lib.collect 32) (funext fun n => isMonitored_iff c n)

theorem outputsMask_eq (c : PinConfig) : c.outputsMask = outputMask c.toFirmware :=
  congrArg (Lib.collect 32) (funext fun n => isOutput_iff c n)

theorem hasBit_outputsMask (c : PinConfig) (n : Gpio) : hasBit c.outputsMask n = (c n).isOutput := by
  rw [outputsMask_eq, Firmware.hasBit_outputMask, isOutput_iff]

theorem defaultFor_eq (available : U32) :
    (PinConfig.defaultFor available).toFirmware = Firmware.pinConfigDefault available := by
  refine Firmware.PinConfig.ext (funext fun n => ?_) (funext fun n => ?_)
  · simp only [PinConfig.toFirmware, PinConfig.defaultFor, Firmware.pinConfigDefault, Host.maskBit_toU8,
      Firmware.rawBit_eq, hasBit_eq]
    split_ifs <;> rfl
  · simp only [PinConfig.toFirmware, PinConfig.defaultFor, Firmware.pinConfigDefault, Host.maskBit_toU8,
      Firmware.rawBit_eq, hasBit_eq]
    split_ifs <;> rfl

/-! ### Single pins -/

theorem hasBit_putInput (s : BoardState) (n m : Gpio) (high : Bool) :
    hasBit (s.putInput n high).inputs m = if m = n then high else hasBit s.inputs m := by
  by_cases hm : m = n
  · subst hm
    cases high <;> simp [BoardState.putInput]
  · cases high <;> simp [BoardState.putInput, hm]

/-! ### Loops over the pins -/

/-- The setting of a pin is unchanged, or only the debounce time changed. -/
def Kept (config next : PinConfig) (n : Gpio) : Prop :=
  config n = next n ∨ ((config n).isMonitored ∧ (next n).isMonitored ∧ (config n).mode = (next n).mode)

instance (config next : PinConfig) (n : Gpio) : Decidable (Kept config next n) :=
  inferInstanceAs (Decidable (_ ∨ _))

/-- The level of a pin after its setting changed. -/
def rewritten (config next : PinConfig) (inputs : U32) (n : Gpio) (level : Bool) : Bool :=
  if Kept config next n then level
  else if (next n).isMonitored then hasBit inputs n else (next n).isOutput && decide ((next n).param ≠ 0)

theorem writePin_eq (config next : PinConfig) (inputs levels : U32) (n : Gpio) :
    BoardState.writePin config next inputs levels n =
      if Kept config next n then levels
      else if (next n).isMonitored then levels &&& ~~~gpioBit n ||| inputs &&& gpioBit n
      else if (next n).isOutput then levels &&& ~~~gpioBit n ||| if (next n).param ≠ 0 then gpioBit n else 0
      else levels &&& ~~~gpioBit n := rfl

theorem hasBit_writePin (config next : PinConfig) (inputs levels : U32) (n m : Gpio) :
    hasBit (BoardState.writePin config next inputs levels n) m =
      if m = n then rewritten config next inputs n (hasBit levels n) else hasBit levels m := by
  rw [writePin_eq, rewritten]
  by_cases hm : m = n
  · subst hm
    cases hmonitored : (next m).isMonitored <;> cases houtput : (next m).isOutput <;> simp
  · cases hmonitored : (next n).isMonitored <;> cases houtput : (next n).isOutput <;> simp [hm]

theorem hasBit_writePins (config next : PinConfig) (inputs levels : U32) (n : Gpio) :
    hasBit ((List.finRange gpioCount).foldl (BoardState.writePin config next inputs) levels) n =
      rewritten config next inputs n (hasBit levels n) := by
  refine Lib.foldl_component (v := hasBit) (I := fun _ => True) (g := rewritten config next inputs)
    (fun _ _ _ => trivial) (fun r n _ => ?_) (fun r n m _ hm => ?_) trivial n
  · rw [hasBit_writePin, if_pos rfl]
  · rw [hasBit_writePin, if_neg hm]

theorem low_writePins (config next : PinConfig) (inputs : U32) {levels : U32} (h : Low levels) :
    Low ((List.finRange gpioCount).foldl (BoardState.writePin config next inputs) levels) := by
  refine Lib.foldl_preserves (fun levels n h => ?_) _ h
  have hcleared : Low (levels &&& ~~~gpioBit n) := low_and_left h _
  rw [writePin_eq]
  split_ifs
  · exact h
  · exact low_or hcleared (low_and_right _ (low_bit n))
  · exact low_or hcleared (low_bit n)
  · exact low_or hcleared Firmware.low_zero
  · exact hcleared

/-- The loop of `reset_outputs`, over all pins. -/
theorem resetOutputs_eq (config : PinConfig) (levels : U32) :
    (Host.maskToGpios config.outputsMask).foldl (BoardState.resetOutput config) levels =
      (List.finRange gpioCount).foldl (fun levels n =>
        if (config n).isOutput
        then levels &&& ~~~gpioBit n ||| if (config n).param ≠ 0 then gpioBit n else 0
        else levels) levels := by
  have hbody : ∀ (levels : U32) (n : Host.Gpio), (if Host.maskBit config.outputsMask n.toU8 = true then
        BoardState.resetOutput config levels n.toU8 else levels) =
      if (config n).isOutput
      then levels &&& ~~~gpioBit n ||| if (config n).param ≠ 0 then gpioBit n else 0
      else levels :=
    fun levels n => by
      rw [Host.maskBit_toU8, ← hasBit_eq, hasBit_outputsMask, BoardState.resetOutput, Host.toNat_toU8,
        Host.PinConfig.get_toU8]
      rfl
  simp only [Host.maskToGpios, List.foldl_filter, List.foldl_map, hbody]

theorem hasBit_resetOutputs (config : PinConfig) (levels : U32) (n : Gpio) :
    hasBit ((Host.maskToGpios config.outputsMask).foldl (BoardState.resetOutput config) levels) n =
      if (config n).isOutput then decide ((config n).param ≠ 0) else hasBit levels n := by
  rw [resetOutputs_eq]
  refine Lib.foldl_component (v := hasBit) (I := fun _ => True) (g := fun n b =>
    if (config n).isOutput then decide ((config n).param ≠ 0) else b)
    (fun _ _ _ => trivial) (fun r n _ => ?_) (fun r n m _ hm => ?_) trivial n
  · by_cases hparam : (config n).param = 0 <;> simp [hparam]
  · simp [hm]

theorem low_resetOutputs (config : PinConfig) {levels : U32} (h : Low levels) :
    Low ((Host.maskToGpios config.outputsMask).foldl (BoardState.resetOutput config) levels) := by
  rw [resetOutputs_eq]
  refine Lib.foldl_preserves (fun levels n h => ?_) _ h
  exact low_ite _ (low_or (low_and_left h _) (low_ite _ (low_bit n) Firmware.low_zero)) h

end Hidpin.Testing
