import Hidpin.Firmware.Machine

/-! The pins as the calls through `hp_hw_t` leave them. The configuration and `output_levels` are what
    the engine believes; here they are compared with the state of the pins after all calls. -/

namespace Hidpin.Firmware

/-- What a pin does. -/
inductive Role where
  | unused
  | input (mode : U8)
  | output (level : Bool)
  deriving DecidableEq

/-- One call. Writing a level to a pin that is not driven does not make it an output. -/
def HwCall.perform (pins : Gpio → Role) : HwCall → Gpio → Role
  | .setUnused gpio => Function.update pins gpio .unused
  | .setInput gpio mode => Function.update pins gpio (.input mode)
  | .setOutput gpio level => Function.update pins gpio (.output level)
  | .writeOutputs mask value => fun n =>
    match pins n with
    | .output level => .output (if hasBit mask n then hasBit value n else level)
    | role => role

/-- The pins after the calls, from their state at boot. -/
def pinsAfter (boot : Gpio → Role) (calls : List HwCall) : Gpio → Role := calls.foldl HwCall.perform boot

/-- Whether a call acts on the GPIO numbered `i`. -/
def HwCall.Touches (i : ℕ) : HwCall → Prop
  | .setUnused gpio => gpio.val = i
  | .setInput gpio _ => gpio.val = i
  | .setOutput gpio _ => gpio.val = i
  | .writeOutputs mask _ => mask.getLsbD i = true

/-- What the configuration and the output levels ask of a pin. -/
def roleOf (config : PinConfig) (levels : U32) (n : Gpio) : Role :=
  if modeIsInput (config.mode n) then .input (config.mode n)
  else if config.mode n = modeOutput then .output (hasBit levels n)
  else .unused

/-- `levels` has bits of output pins only. -/
def OnlyOutputs (config : PinConfig) (levels : U32) : Prop := levels &&& ~~~outputMask config = 0#32

theorem onlyOutputs_iff {config : PinConfig} {levels : U32} :
    OnlyOutputs config levels ↔ (∀ n, hasBit levels n = true → config.mode n = modeOutput) ∧
      ∀ i, gpioCount ≤ i → levels.getLsbD i = false := by
  constructor
  · intro h
    have hbit : ∀ i, i < 32 → (levels.getLsbD i && !(outputMask config).getLsbD i) = false := by
      intro i hi
      have := congrArg (BitVec.getLsbD · i) h
      simpa [hi] using this
    refine ⟨fun n hn => ?_, fun i hi => ?_⟩
    · have hb := hbit n n.lt_word
      rw [← hasBit_eq, ← hasBit_eq, hn, hasBit_outputMask] at hb
      simpa using hb
    · by_cases hw : i < 32
      · have hb := hbit i hw
        rw [outputMask, Lib.getLsbD_collect_of_le _ hi] at hb
        simpa using hb
      · exact BitVec.getLsbD_of_ge _ _ (by omega)
  · rintro ⟨hlow, hhigh⟩
    refine BitVec.eq_of_getLsbD_eq fun i hi => ?_
    by_cases hg : i < gpioCount
    · obtain ⟨n, rfl⟩ : ∃ n : Gpio, n.val = i := ⟨⟨i, hg⟩, rfl⟩
      have hn := hlow n
      rw [BitVec.getLsbD_and, BitVec.getLsbD_not, ← hasBit_eq, ← hasBit_eq, hasBit_outputMask]
      cases hb : hasBit levels n
      · simp
      · simp [hn hb]
    · simp [hhigh i (by omega)]

theorem onlyOutputs_and (c : PinConfig) (mask : U32) : OnlyOutputs c (mask &&& outputMask c) := by
  rw [OnlyOutputs, BitVec.and_assoc, BitVec.and_not_self]
  exact BitVec.and_zero

theorem onlyOutputs_initial (c : PinConfig) : OnlyOutputs c (initialOutputLevels c) := by
  refine onlyOutputs_iff.mpr ⟨fun n hn => ?_, fun i hi => Lib.getLsbD_collect_of_le _ hi⟩
  rw [hasBit_initialOutputLevels] at hn
  exact of_decide_eq_true (Bool.and_eq_true_iff.mp hn).1

theorem OnlyOutputs.or {c : PinConfig} {a b : U32} (ha : OnlyOutputs c a) (hb : OnlyOutputs c b) :
    OnlyOutputs c (a ||| b) := by
  rw [OnlyOutputs, BitVec.and_or_distrib_right, ha, hb]
  rfl

theorem OnlyOutputs.and_left {c : PinConfig} {a : U32} (ha : OnlyOutputs c a) (b : U32) :
    OnlyOutputs c (a &&& b) := by
  rw [OnlyOutputs, BitVec.and_assoc, BitVec.and_comm b, ← BitVec.and_assoc, ha]
  exact BitVec.zero_and

theorem OnlyOutputs.and_right {c : PinConfig} {b : U32} (hb : OnlyOutputs c b) (a : U32) :
    OnlyOutputs c (a &&& b) := by
  rw [BitVec.and_comm]; exact hb.and_left a

theorem pinsAfter_append (boot : Gpio → Role) (calls calls' : List HwCall) :
    pinsAfter boot (calls ++ calls') = pinsAfter (pinsAfter boot calls) calls' := List.foldl_append

namespace Engine

/-- The role a pin has after a Set, from its role before. -/
def appliedRole (c next : PinConfig) (n : Gpio) (role : Role) : Role :=
  if sameEntry c next n then role
  else if modeIsInput (next.mode n) then
    if c.mode n = next.mode n then role else .input (next.mode n)
  else if next.mode n = modeOutput then .output (decide (next.param n ≠ 0))
  else .unused

/-- The calls of a Set act on each pin by itself. -/
theorem pinsAfter_appliedCalls (c next : PinConfig) (pins : Gpio → Role) (n : Gpio) :
    pinsAfter pins ((List.finRange gpioCount).flatMap (appliedCalls c next)) n =
      appliedRole c next n (pins n) := by
  rw [pinsAfter, List.foldl_flatMap]
  refine Lib.foldl_component (v := fun (pins : Gpio → Role) n => pins n) (I := fun _ => True)
    (fun _ _ _ => trivial) (fun pins n _ => ?_) (fun pins n m _ hm => ?_) trivial n
  · simp only [appliedCalls, appliedRole]
    split_ifs <;> simp [HwCall.perform]
  · simp only [appliedCalls]
    split_ifs <;> simp [HwCall.perform, hm]

/-- A Set leaves every pin in the role of the new configuration. -/
theorem appliedRole_eq (c next : PinConfig) {levels levels' : U32} (n : Gpio)
    (hl : hasBit levels' n = appliedLevel c next n (hasBit levels n)) :
    appliedRole c next n (roleOf c levels n) = roleOf next levels' n := by
  have hin := modeIsInput_modeOutput
  simp only [appliedRole, roleOf, hl, appliedLevel, sameEntry]
  by_cases hsame : c.mode n = next.mode n ∧ c.param n = next.param n
  · simp [hsame]
  · by_cases hmode : modeIsInput (next.mode n) = true
    · by_cases heq : c.mode n = next.mode n
      · simp [hmode, heq]
      · simp [hmode, heq]
    · by_cases hout : next.mode n = modeOutput
      · rw [hout] at hsame
        simp [hsame, hout, hin]
      · simp [hsame, hout, hmode]

/-- What the calls so far made of the pins. -/
structure Electrical (boot : Gpio → Role) (info : DeviceInfo) (e : Engine) : Prop where
  info_eq : e.info = info
  valid : e.config.Valid info.available
  levels : OnlyOutputs e.config e.outputLevels
  pins : ∀ n, rawBit info.available n = true →
    pinsAfter boot e.hw n = roleOf e.config e.outputLevels n
  calls : ∀ call ∈ e.hw, ∀ i, call.Touches i → info.available.getLsbD i = true

namespace Electrical
variable {boot : Gpio → Role} {info : DeviceInfo} {e e' : Engine}

/-- A pin that a valid configuration uses is on the board. -/
theorem available_of_used {c : PinConfig} (hv : c.Valid info.available) {n : Gpio}
    (hn : c.mode n ≠ modeUnused) : info.available.getLsbD n = true := by
  have h := (hv n).2.1
  rw [rawBit_eq, hasBit_eq] at h
  by_contra hc
  exact hn (h (by simpa using hc))

theorem congr (h : Electrical boot info e) (hi : e'.info = e.info) (hc : e'.config = e.config)
    (hl : e'.outputLevels = e.outputLevels) (hw : e'.hw = e.hw) : Electrical boot info e' where
  info_eq := hi.trans h.info_eq
  valid := by rw [hc]; exact h.valid
  levels := by rw [hc, hl]; exact h.levels
  pins := by rw [hw, hc, hl]; exact h.pins
  calls := by rw [hw]; exact h.calls

theorem of_frame (h : Electrical boot info e) (hf : Frame e e') : Electrical boot info e' :=
  h.congr hf.info hf.config hf.outputLevels hf.hw

theorem of_applied (h : Electrical boot info e) {next : PinConfig} {nowUs : U64}
    (hv : next.Valid info.available) (ha : Applied e next nowUs e') : Electrical boot info e' := by
  obtain ⟨hlow, hhigh⟩ := onlyOutputs_iff.mp h.levels
  refine ⟨ha.info.trans h.info_eq, by rw [ha.config]; exact hv, ?_, fun n hn => ?_, fun call hc => ?_⟩
  · rw [ha.config]
    refine onlyOutputs_iff.mpr ⟨fun n hn => ?_, fun i hi => by rw [ha.outputHigh i hi]; exact hhigh i hi⟩
    rw [ha.outputLevels, appliedLevel] at hn
    split_ifs at hn with hsame
    · rw [← (of_decide_eq_true hsame).1]; exact hlow n hn
    · exact of_decide_eq_true (Bool.and_eq_true_iff.mp hn).1
  · rw [ha.hw, pinsAfter_append, pinsAfter_appliedCalls, h.pins n hn, ha.config]
    exact appliedRole_eq e.config next n (ha.outputLevels n)
  · rw [ha.hw, List.mem_append, List.mem_flatMap] at hc
    rcases hc with hc | ⟨m, _, hm⟩
    · exact h.calls call hc
    · intro i hi
      -- a pin that is not on the board is unused in both configurations
      have hused : e.config.mode m ≠ modeUnused ∨ next.mode m ≠ modeUnused := by
        by_contra hboth
        rw [not_or, not_not, not_not] at hboth
        have hp : e.config.param m = next.param m :=
          ((h.valid m).2.2.1 hboth.1).trans ((hv m).2.2.1 hboth.2).symm
        simp [appliedCalls, sameEntry, hboth, hp] at hm
      have hmi : m.val = i := by
        simp only [appliedCalls] at hm
        split_ifs at hm <;> simp_all [HwCall.Touches]
      rw [← hmi]
      exact hused.elim (available_of_used h.valid) (available_of_used hv)

/-- Writing levels to output pins and remembering them. -/
theorem writeOutputs (h : Electrical boot info e) {mask value levels : U32}
    (hmask : OnlyOutputs e.config mask) (hlevels : OnlyOutputs e.config levels)
    (hbit : ∀ n, e.config.mode n = modeOutput → hasBit levels n =
      if hasBit mask n then hasBit value n else hasBit e.outputLevels n)
    (hi : e'.info = e.info) (hc : e'.config = e.config) (hl : e'.outputLevels = levels)
    (hw : e'.hw = e.hw ++ [.writeOutputs mask value]) : Electrical boot info e' := by
  refine ⟨hi.trans h.info_eq, by rw [hc]; exact h.valid, by rw [hc, hl]; exact hlevels, fun n hn => ?_,
    fun call hcall => ?_⟩
  · rw [hw, pinsAfter_append, hc, hl]
    simp only [pinsAfter, List.foldl_cons, List.foldl_nil, HwCall.perform]
    have hpin := h.pins n hn
    rw [pinsAfter] at hpin
    rw [hpin]
    by_cases hmode : modeIsInput (e.config.mode n) = true
    · simp [roleOf, hmode]
    · by_cases hout : e.config.mode n = modeOutput
      · simp [roleOf, hout, modeIsInput_modeOutput, hbit n hout]
      · simp [roleOf, hmode, hout]
  · rw [hw, List.mem_append, List.mem_singleton] at hcall
    rcases hcall with hcall | rfl
    · exact h.calls call hcall
    · intro i hi
      obtain ⟨hlow, hhigh⟩ := onlyOutputs_iff.mp hmask
      have hlt : i < gpioCount := by
        by_contra hge
        have := hhigh i (by omega)
        rw [show mask.getLsbD i = true from hi] at this
        exact absurd this (by decide)
      obtain ⟨n, rfl⟩ : ∃ n : Gpio, n.val = i := ⟨⟨i, hlt⟩, rfl⟩
      refine available_of_used h.valid ?_
      rw [hlow n (by rw [hasBit_eq]; exact hi)]
      decide

theorem setPinConfig (h : Electrical boot info e) (payload : List U8) (nowUs : U64) :
    Electrical boot info (e.setPinConfig payload nowUs) := by
  rcases e.setPinConfig_cases payload nowUs with ⟨_, heq⟩ | ⟨next, hc, ha⟩
  · rw [heq]; exact h.congr rfl rfl rfl rfl
  · obtain ⟨⟨_, hv⟩, rfl⟩ := acceptedConfig_eq_some.mp hc
    rw [h.info_eq] at hv
    exact h.of_applied hv ha

theorem output (h : Electrical boot info e) (payload : List U8) :
    Electrical boot info (e.output payload).1 := by
  unfold Engine.output
  cases outputDecode payload with
  | none => exact h
  | some mv =>
    obtain ⟨mask, value⟩ := mv
    have htarget := onlyOutputs_and e.config mask
    have hlevels : OnlyOutputs e.config ((e.outputLevels &&& ~~~(mask &&& outputMask e.config)) |||
        (value &&& (mask &&& outputMask e.config))) :=
      (h.levels.and_left _).or (htarget.and_right value)
    have hbit : ∀ n, e.config.mode n = modeOutput →
        hasBit ((e.outputLevels &&& ~~~(mask &&& outputMask e.config)) |||
          (value &&& (mask &&& outputMask e.config))) n =
        if hasBit (mask &&& outputMask e.config) n then
          hasBit (value &&& (mask &&& outputMask e.config)) n else hasBit e.outputLevels n := by
      intro n hn
      cases hm : hasBit mask n <;> simp [hn, hm]
    dsimp only
    by_cases h0 : mask &&& outputMask e.config = 0#32
    · refine h.congr rfl rfl ?_ ?_
      · simp only [h0, BitVec.and_zero, BitVec.or_zero, BitVec.not_zero, BitVec.and_allOnes]
      · simp [h0]
    · exact h.writeOutputs htarget hlevels hbit rfl rfl rfl (if_pos h0)

theorem usbReset (h : Electrical boot info e) : Electrical boot info e.usbReset := by
  simp only [Engine.usbReset]
  split_ifs with h0
  · exact h
  · have hall : OnlyOutputs e.config (outputMask e.config) := BitVec.and_not_self _
    refine h.writeOutputs hall ((h.levels.and_left _).or (onlyOutputs_initial e.config)) (fun n hn => ?_)
      rfl rfl rfl rfl
    simp [hn]

theorem init (boot : Gpio → Role) (info : DeviceInfo) (nowUs : U64) :
    Electrical boot info (Engine.init info nowUs) := by
  rw [init_eq]
  have hmode : ∀ n, modeIsInput ((pinConfigDefault info.available).mode n) = hasBit info.available n := by
    intro n
    cases h : hasBit info.available n <;> simp only [pinConfigDefault, rawBit_eq, h] <;> decide
  refine ⟨rfl, pinConfigDefault_valid _, by simp [OnlyOutputs, blank], fun n hn => ?_, fun call hc => ?_⟩
  · rw [rawBit_eq] at hn
    have hin := (hmode n).trans hn
    simp only [roleOf, blank, hin, if_true]
    refine Eq.trans (b := (fun (l : List Gpio) (role : Role) =>
      if n ∈ l then Role.input ((pinConfigDefault info.available).mode n) else role)
      ((List.finRange gpioCount).filter fun n =>
        modeIsInput ((pinConfigDefault info.available).mode n)) (boot n)) ?_ (by simp [hin])
    generalize ((List.finRange gpioCount).filter _) = l
    induction l generalizing boot with
    | nil => rfl
    | cons m l ih =>
      rw [List.map_cons, pinsAfter, List.foldl_cons, ← pinsAfter, ih]
      by_cases hmn : n = m
      · subst hmn; simp [HwCall.perform]
      · simp [HwCall.perform, hmn]
  · obtain ⟨n, hn, rfl⟩ := List.mem_map.mp hc
    intro i hi
    have hin := (List.mem_filter.mp hn).2
    rw [hmode, hasBit_eq] at hin
    rw [← show n.val = i from hi]
    exact hin

end Electrical

end Engine

namespace Device
open Engine

theorem electrical_step {boot : Gpio → Role} {info : DeviceInfo} (d : Device) (op : Op)
    (h : d.Inv ∧ d.engine.Electrical boot info) :
    (d.step op).Inv ∧ (d.step op).engine.Electrical boot info := by
  refine ⟨step_inv d op h.1, ?_⟩
  obtain ⟨_, he⟩ := h
  cases op with
  | onEdge gpio raw nowUs => exact he.of_frame (frame_onEdge _ gpio raw nowUs)
  | resync raw nowUs => exact he.of_frame (frame_resync _ raw nowUs)
  | task nowUs inputs =>
    have hpoll : ∀ e : Engine, e.Electrical boot info → (e.pollTask nowUs).Electrical boot info := by
      intro e h
      unfold pollTask
      split_ifs
      · exact (h.of_frame (frame_pollPins e nowUs)).congr rfl rfl rfl rfl
      · exact h.of_frame (frame_pollPins e nowUs)
    simp only [step, task_eq]
    split_ifs
    · rw [finishSettle_eq]
      exact hpoll _ (he.congr rfl rfl rfl rfl)
    · exact hpoll _ he
  | setPinConfig payload nowUs => exact he.setPinConfig payload nowUs
  | output payload => exact he.output payload
  | usbReset => exact he.usbReset
  | getStatus nowUs => exact he
  | getDeviceInfo => exact he
  | getPinConfig => exact he
  | send nowUs accepted =>
    simp only [step, sendStatusReport_eq]
    split_ifs
    · exact he.congr rfl rfl rfl rfl
    · exact he.congr rfl rfl rfl rfl

/-- The configuration an operation puts in force. -/
def accepts (x : Device × Op) : Option PinConfig :=
  match x.2 with
  | .setPinConfig payload _ => x.1.engine.acceptedConfig payload
  | _ => none

/-- The configuration of the latest accepted Set of a trace, or the default one. -/
def latestAccepted (info : DeviceInfo) (tr : List (Device × Op)) : PinConfig :=
  ((tr.filterMap accepts).getLast?).getD (pinConfigDefault info.available)

/-- The calls an operation makes. -/
def newCalls (x : Device × Op) : List HwCall :=
  (x.1.step x.2).engine.hw.drop x.1.engine.hw.length

theorem pollTask_frame (e : Engine) (nowUs : U64) :
    (e.pollTask nowUs).hw = e.hw ∧ (e.pollTask nowUs).config = e.config := by
  have hf := frame_pollPins e nowUs
  unfold pollTask
  split_ifs
  · exact ⟨hf.hw, hf.config⟩
  · exact ⟨hf.hw, hf.config⟩

theorem config_step (d : Device) (op : Op) :
    (d.step op).engine.config = (accepts (d, op)).getD d.engine.config := by
  cases op with
  | onEdge gpio raw nowUs => exact (frame_onEdge d.engine gpio raw nowUs).config
  | resync raw nowUs => exact (frame_resync d.engine raw nowUs).config
  | task nowUs inputs =>
    simp only [step, task_eq, (pollTask_frame _ nowUs).2, accepts, Option.getD_none]
    split_ifs
    · rw [finishSettle_eq]
    · rfl
  | setPinConfig payload nowUs =>
    rcases d.engine.setPinConfig_cases payload nowUs with ⟨hc, heq⟩ | ⟨next, hc, ha⟩
    · simp only [step, accepts, heq, hc, recordResult, Option.getD_none]
    · simp only [step, accepts, ha.config, hc, Option.getD_some]
  | output payload =>
    simp only [step, output, accepts, Option.getD_none]
    split <;> rfl
  | usbReset =>
    simp only [step, usbReset, accepts, Option.getD_none]
    split_ifs <;> rfl
  | send nowUs accepted =>
    simp only [step, sendStatusReport_eq, accepts, Option.getD_none]
    split_ifs <;> rfl
  | _ => rfl

/-- The engine's configuration is the latest accepted one. -/
theorem config_run (info : DeviceInfo) (startUs : U64) (ops : List Op) :
    (Lib.run step (start info startUs) ops).engine.config =
      latestAccepted info (Lib.steps step (start info startUs) ops) := by
  induction ops using List.reverseRecOn with
  | nil => simp [start, init_eq, blank, latestAccepted]
  | append_singleton ops op ih =>
    rw [Lib.run_append, Lib.steps_concat]
    generalize Lib.run step (start info startUs) ops = d at ih ⊢
    rw [Lib.run_cons, Lib.run_nil, config_step, ih]
    cases h : accepts (d, op) <;> simp [latestAccepted, List.filterMap_append, h]

/-- Only output pins are written. -/
theorem writes_step (d : Device) (op : Op) {mask value : U32}
    (h : HwCall.writeOutputs mask value ∈ newCalls (d, op)) : OnlyOutputs d.engine.config mask := by
  cases op with
  | onEdge gpio raw nowUs =>
    simp [newCalls, step, (frame_onEdge d.engine gpio raw nowUs).hw] at h
  | resync raw nowUs =>
    simp [newCalls, step, (frame_resync d.engine raw nowUs).hw] at h
  | task nowUs inputs =>
    simp only [newCalls, step, task_eq, (pollTask_frame _ nowUs).1] at h
    split_ifs at h
    · simp [finishSettle_eq] at h
    · simp at h
  | setPinConfig payload nowUs =>
    rcases d.engine.setPinConfig_cases payload nowUs with ⟨_, heq⟩ | ⟨next, _, ha⟩
    · simp [newCalls, step, heq, recordResult] at h
    · simp only [newCalls, step, ha.hw, List.drop_left, List.mem_flatMap, appliedCalls] at h
      obtain ⟨n, _, hn⟩ := h
      split_ifs at hn <;> simp at hn
  | output payload =>
    simp only [newCalls, step, output] at h
    cases hd : outputDecode payload with
    | none => simp [hd] at h
    | some mv =>
      simp only [hd] at h
      split_ifs at h
      · rw [List.drop_left, List.mem_singleton, HwCall.writeOutputs.injEq] at h
        rw [h.1]
        exact onlyOutputs_and _ _
      · simp at h
  | usbReset =>
    simp only [newCalls, step, usbReset] at h
    split_ifs at h
    · simp at h
    · rw [List.drop_left, List.mem_singleton, HwCall.writeOutputs.injEq] at h
      rw [h.1]
      exact BitVec.and_not_self _
  | send nowUs accepted =>
    simp only [newCalls, step, sendStatusReport_eq] at h
    split_ifs at h <;> simp [handOver, stage] at h
  | _ => simp [newCalls, step] at h

/-- The output levels after a USB reset. -/
theorem hasBit_usbReset (e : Engine) {n : Gpio} (hn : e.config.mode n = modeOutput) :
    hasBit e.usbReset.outputLevels n = decide (e.config.param n ≠ 0) := by
  have h0 : outputMask e.config ≠ 0#32 := by
    intro h
    have hbit := hasBit_outputMask e.config n
    rw [h, hasBit_zero, hn] at hbit
    exact absurd hbit (by decide)
  rw [usbReset, if_neg h0]
  simp [hn]

/-- In every reachable state the pins are what the latest accepted configuration and the output levels
    ask for; a USB reset drives every output pin at its initial level. -/
theorem electrical_state (boot : Gpio → Role) (info : DeviceInfo) (startUs : U64) (ops : List Op) :
    let d := Lib.run step (start info startUs) ops
    let trace := Lib.steps step (start info startUs) ops
    let config := latestAccepted info trace
    d.engine.config = config ∧
    (∀ n, rawBit info.available n = true →
      pinsAfter boot d.engine.hw n = roleOf config d.engine.outputLevels n) ∧
    OnlyOutputs config d.engine.outputLevels ∧
    (∀ call ∈ d.engine.hw, ∀ i, call.Touches i → info.available.getLsbD i = true) ∧
    (∀ x ∈ trace, ∀ mask value, HwCall.writeOutputs mask value ∈ newCalls x →
      OnlyOutputs x.1.engine.config mask) ∧
    ∀ n, config.mode n = modeOutput →
      pinsAfter boot (d.step .usbReset).engine.hw n = .output (decide (config.param n ≠ 0)) := by
  intro d trace config
  have hd : d.Inv ∧ d.engine.Electrical boot info :=
    Lib.run_preserves electrical_step ops ⟨inv_run info startUs [], Electrical.init boot info startUs⟩
  have hconfig : d.engine.config = config := config_run info startUs ops
  obtain ⟨_, he⟩ := hd
  refine ⟨hconfig, ?_, hconfig ▸ he.levels, he.calls, fun x _ mask value h => writes_step x.1 x.2 h,
    fun n hn => ?_⟩
  · rw [← hconfig]; exact he.pins
  · rw [← hconfig] at hn ⊢
    have hreset := he.usbReset
    have hkept : (d.step .usbReset).engine.config = d.engine.config := config_step d .usbReset
    have havail : rawBit info.available n = true := by
      rw [rawBit_eq, hasBit_eq]
      exact Electrical.available_of_used he.valid (by rw [hn]; decide)
    rw [show pinsAfter boot (d.step .usbReset).engine.hw n = _ from hreset.pins n havail,
      show d.engine.usbReset.config = _ from hkept, roleOf, hn, if_neg (by decide), if_pos rfl,
      hasBit_usbReset _ hn]

end Device

end Hidpin.Firmware
