import Hidpin.Testing.Mirrors

/-! A Set on the simulated board and on the firmware: both validate alike, and when the firmware has read the
    new inputs for the first time the levels of the board are those of the engine. -/

namespace Hidpin.Testing
open Host (PinConfig)
open Firmware (Device Op Engine Gpio hasBit Low modeIsInput modeOutput inputMask outputMask)
open Firmware.Device (Timed)
open Hidpin.System (Move hostReport)

/-- The result of a Set, as the firmware records it. -/
def BoardState.record (s : BoardState) (decoded : Firmware.DecodedSet) : BoardState :=
  { s with result := ⟨decoded.result⟩, resultGpio := decoded.resultGpio, requestId := decoded.requestId }

/-- Both sides validate alike. -/
theorem validate_eq (p : List U8) (available : U32) :
    let decoded := Firmware.pinConfigDecodeSet p available
    Host.validatePinConfigPayload p available =
      (⟨decoded.result⟩, decoded.resultGpio, decoded.requestId) := by
  obtain ⟨hresult, hid⟩ := Codec.decodeSet_agrees p available
  rw [Codec.firstFailing_checks] at hresult
  rw [Codec.recordedId_eq] at hid
  intro decoded
  rw [show decoded.requestId = p.getD 2 0 from hid, Host.validatePinConfigPayload]
  split_ifs at hresult ⊢ with hlen
  · rw [show decoded.result = 1 from congrArg Prod.fst hresult,
      show decoded.resultGpio = 0xFF from congrArg Prod.snd hresult]
    rfl
  · have hrust := (Codec.rust_entries p available (List.finRange Firmware.gpioCount)).trans hresult.symm
    rw [show decoded.resultGpio = _ from (congrArg Prod.snd hrust).symm]
    exact Prod.ext (congrArg Host.ResultCode.mk (congrArg Prod.fst hrust)) rfl

theorem writeConfig_rejected {s : BoardState} {p : List U8}
    (h : (Firmware.pinConfigDecodeSet p s.info.available).config = none) :
    s.writeConfig p = s.record (Firmware.pinConfigDecodeSet p s.info.available) := by
  have hresult : (Firmware.pinConfigDecodeSet p s.info.available).result ≠ Firmware.resultOk := fun hok => by
    have hvalid := Firmware.decodeSet_result.mp hok
    rw [(Firmware.decodeSet_of_valid hvalid.1 hvalid.2).2] at h
    cases h
  have hcode : (⟨(Firmware.pinConfigDecodeSet p s.info.available).result⟩ : Host.ResultCode) ≠ .ok :=
    fun hc =>
      hresult (congrArg Host.ResultCode.code hc)
  simp only [BoardState.writeConfig, validate_eq]
  exact if_pos hcode

/-- The board after a valid Set of another configuration, before it sends its report. -/
def BoardState.rewired (s : BoardState) (next : PinConfig) : BoardState :=
  { s with
    levels := (List.finRange Firmware.gpioCount).foldl (BoardState.writePin s.config next s.inputs) s.levels
    config := next }

theorem writeConfig_accepted {s : BoardState} {p : List U8} {next : PinConfig}
    (h : (Firmware.pinConfigDecodeSet p s.info.available).config = some next.toFirmware) :
    s.writeConfig p =
      if next = s.config then s.record (Firmware.pinConfigDecodeSet p s.info.available)
      else ((s.record (Firmware.pinConfigDecodeSet p s.info.available)).rewired next).send
        Host.Reason.configChanged [] := by
  obtain ⟨⟨hlen, hvalid⟩, hnext⟩ := Firmware.decodeSet_config.mp h
  have hresult := Firmware.decodeSet_result.mpr ⟨hlen, hvalid⟩
  have hmode : ∀ n, (next n).mode.toU8 = Firmware.payloadMode p n := fun n =>
    congrFun (congrArg Firmware.PinConfig.mode hnext) n
  have hparam : (fun n => (⟨(next n).mode, Firmware.payloadParam p n⟩ : Host.PinSetting)) = next :=
    funext fun n => by
      have hn : (next n).param = Firmware.payloadParam p n :=
        congrFun (congrArg Firmware.PinConfig.param hnext) n
      rw [← hn]
  have hdecode : Host.decodePinConfig p =
      .ok ⟨⟨Host.byteAt p 0⟩, Host.byteAt p 1, Host.byteAt p 2, next⟩ := by
    rw [Host.decodePinConfig, if_neg (not_not.mpr hlen), Codec.rust_settings hmode, Codec.foldl_update_all,
      hparam]
  have hcode : ¬ (⟨(Firmware.pinConfigDecodeSet p s.info.available).result⟩ : Host.ResultCode) ≠ .ok :=
    not_not.mpr (congrArg Host.ResultCode.mk hresult)
  simp only [BoardState.writeConfig, validate_eq, hdecode]
  exact if_neg hcode

/-- Entries that agree on both sides. -/
theorem sameEntry_iff (c next : PinConfig) (n : Gpio) :
    Engine.sameEntry c.toFirmware next.toFirmware n = decide (c n = next n) := by
  have hmode : ∀ m m' : Host.PinMode, m.toU8 = m'.toU8 ↔ m = m' := fun m m' =>
    ⟨fun h => Option.some.inj (by rw [← Host.PinMode.ofU8_toU8, h, Host.PinMode.ofU8_toU8]),
      fun h => by rw [h]⟩
  rw [Engine.sameEntry, decide_eq_decide]
  refine (and_congr_left' (hmode _ _)).trans ⟨fun h => ?_, fun h =>
    ⟨congrArg Host.PinSetting.mode h, congrArg Host.PinSetting.param h⟩⟩
  cases hc : c n
  cases hn : next n
  simp_all [PinConfig.toFirmware]

/-- A turn of the loop that ends a settle and finds nothing else to do. -/
theorem task_settles {e : Engine} {word : U32} {nowUs : U64} (hsettles : e.settles nowUs = true)
    (hsteady : Engine.Steady word (e.finishSettle word)) (hdue : e.periodicDue nowUs = false) :
    e.task nowUs word = e.finishSettle word := by
  have hlater : (e.finishSettle word).periodicDue nowUs = false := by
    rw [Engine.finishSettle_eq]
    exact hdue
  have htask := hsteady.task_eq nowUs word
  rw [Engine.task_eq, hlater, if_neg Bool.false_ne_true, Engine.settles, hsteady.idle, Bool.false_and,
    if_neg Bool.false_ne_true] at htask
  rw [Engine.task_eq, hsettles, if_pos rfl, htask]

/-- What the feature reports say after a Set. -/
theorem features_set (e : Engine) (p : List U8) (nowUs : U64) :
    let decoded := Firmware.pinConfigDecodeSet p e.info.available
    (e.setPinConfig p nowUs).features =
      (e.info, ⟨decoded.result, decoded.resultGpio, decoded.requestId, decoded.config.getD e.config⟩) := by
  intro decoded
  cases hnext : decoded.config with
  | none =>
    have hset : e.setPinConfig p nowUs = e.recordResult decoded := by
      simp only [Engine.setPinConfig, decoded, hnext]
    rw [hset]
    rfl
  | some next =>
    have hset : e.setPinConfig p nowUs = (e.recordResult decoded).applyConfig next nowUs := by
      simp only [Engine.setPinConfig, decoded, hnext]
    rw [hset]
    exact Engine.features_applyConfig _ next nowUs

namespace Mirrors
variable {s : BoardState} {d : Device} {reasons : U8} {events : List Firmware.EdgeEvent}

/-- A Set that does not change the configuration. -/
theorem set_recorded (h : Mirrors 0 [] s d) {p : List U8} {nowUs : U64} {decoded : Firmware.DecodedSet}
    (hdecoded : Firmware.pinConfigDecodeSet p d.engine.info.available = decoded)
    (hsame : ∀ next, decoded.config = some next → next = d.engine.config) :
    Mirrors 0 [] (s.record decoded) (d.step (.setPinConfig p nowUs)) := by
  have hfeatures := features_set d.engine p nowUs
  simp only [hdecoded] at hfeatures
  have hconfig : (d.step (.setPinConfig p nowUs)).engine.config = d.engine.config := by
    refine (congrArg (fun f => f.2.config) hfeatures :).trans ?_
    cases hc : decoded.config with
    | none => rfl
    | some next => exact hsame next hc
  have hkept : (d.step (.setPinConfig p nowUs)).engine.settleActive = false ∧
      (∀ n, (d.step (.setPinConfig p nowUs)).engine.debounce n = d.engine.debounce n) ∧
      (∀ n, hasBit (d.step (.setPinConfig p nowUs)).engine.outputLevels n = hasBit d.engine.outputLevels n) ∧
      (d.step (.setPinConfig p nowUs)).engine.applyCore.clearConfig = d.engine.applyCore.clearConfig := by
    rcases d.engine.setPinConfig_cases p nowUs with ⟨_, heq⟩ | ⟨next, hnext, ha⟩
    · simp only [Device.step, heq]
      exact ⟨h.steady.idle, fun _ => rfl, fun _ => rfl, rfl⟩
    · rw [Engine.acceptedConfig, hdecoded] at hnext
      obtain rfl := hsame next hnext
      have hentry : ∀ n, Engine.sameEntry d.engine.config d.engine.config n = true :=
        fun n => by simp [Engine.sameEntry]
      refine ⟨?_, fun n => ?_, fun n => ?_, ha.rest⟩
      · exact ha.settleActive.trans (by simp [h.steady.idle])
      · exact (ha.debounce n).trans (by simp [Engine.appliedDebounce, hentry])
      · exact (ha.outputLevels n).trans (by simp [Engine.appliedLevel, hentry])
  obtain ⟨hidle, hdebounce, hlevels, hrest⟩ := hkept
  exact
    { inv := Device.step_inv d _ h.inv
      timed := Device.timed_step d _ h.timed
      steady := ⟨hidle, fun n hn => by rw [hdebounce]; exact h.steady.agree n (by rw [← hconfig]; exact hn)⟩
      reasons := (congrArg Engine.pendingReasons hrest :).trans h.reasons
      events := (congrArg (fun e => e.queue.toList) hrest :).trans h.events
      room := (congrArg (fun e => e.queue.overflowed) hrest :).trans h.room
      info := (congrArg Prod.fst hfeatures :).trans h.info
      config := h.config.trans hconfig.symm
      result := (congrArg (fun f => f.2.result) hfeatures :).symm
      resultGpio := (congrArg (fun f => f.2.resultGpio) hfeatures :).symm
      requestId := (congrArg (fun f => f.2.requestId) hfeatures :).symm
      input := h.input
      output := fun n hn => by rw [hlevels]; exact h.output n hn
      unused := h.unused
      low := h.low
      overflow := h.overflow
      nextSeq := h.nextSeq.trans (congrArg Engine.nextSeq hrest :).symm
      lastSeq := h.lastSeq.trans (congrArg (fun e => if e.hasSent then e.lastSeq else 0) hrest :).symm
      sent := h.sent }

/-- The pins after a valid Set of another configuration and the first reading a millisecond later. -/
theorem steady_set (h : Mirrors 0 [] s d) {next : Firmware.PinConfig} {nowUs : U64} {e : Engine}
    (ha : Engine.Applied d.engine next nowUs e) : Engine.Steady s.inputs (e.finishSettle s.inputs) := by
  refine ⟨by rw [Engine.finishSettle_eq], fun n hn => ?_⟩
  rw [Engine.finishSettle_eq] at hn ⊢
  simp only [Engine.readDebounce]
  by_cases hsettling : hasBit e.settling n = true
  · rw [if_pos hsettling]
    exact ⟨rfl, rfl⟩
  · -- an input that is not read anew was an input of the same mode before
    have hmode : d.engine.config.mode n = next.mode n := by
      rw [ha.settling, (h.inv.settled h.steady.idle).1, Engine.appliedSettling] at hsettling
      rw [ha.config] at hn
      split_ifs at hsettling with hsame
      · exact (of_decide_eq_true hsame).1
      · simpa [hn] using hsettling
    have hagree := h.steady.agree n (by rw [hmode, ← ha.config]; exact hn)
    rw [if_neg hsettling, ha.debounce, Engine.appliedDebounce]
    split_ifs
    · rw [Firmware.Debounce.confirmed_setTime, Firmware.Debounce.pending_setTime]
      exact hagree
    · exact hagree

theorem input_rewired (h : Mirrors 0 [] s d) (next : PinConfig) (n : Gpio)
    (hn : (next n).isMonitored = true) : hasBit (s.rewired next).levels n = hasBit s.inputs n := by
  refine (hasBit_writePins _ _ _ _ n).trans ?_
  rw [rewritten]
  split_ifs with hkept
  · refine h.input n ?_
    rcases hkept with hsame | hsame
    · rw [hsame]; exact hn
    · exact hsame.1
  · rfl

theorem output_rewired (h : Mirrors 0 [] s d) (next : PinConfig) (n : Gpio) (hn : (next n).isOutput = true) :
    hasBit (s.rewired next).levels n =
      if s.config n = next n then hasBit d.engine.outputLevels n else decide ((next n).param ≠ 0) := by
  have hmonitored := not_monitored hn
  refine (hasBit_writePins _ _ _ _ n).trans ?_
  simp only [rewritten, Kept, hmonitored, Bool.false_eq_true, false_and, and_false, or_false, if_false, hn,
    Bool.true_and]
  split_ifs with hsame
  · exact h.output n (by rw [hsame]; exact hn)
  · rfl

theorem unused_rewired (h : Mirrors 0 [] s d) (next : PinConfig) (n : Gpio)
    (hn : (next n).isMonitored = false) (hn' : (next n).isOutput = false) :
    hasBit (s.rewired next).levels n = false := by
  refine (hasBit_writePins _ _ _ _ n).trans ?_
  simp only [rewritten, Kept, hn, hn', Bool.false_eq_true, false_and, and_false, or_false, if_false]
  split_ifs with hsame
  · exact h.unused n (by rw [hsame]; exact hn) (by rw [hsame]; exact hn')
  · rfl

/-- A valid Set of another configuration. -/
theorem set_applied (h : Mirrors 0 [] s d) {p : List U8} {nowUs : U64} {decoded : Firmware.DecodedSet}
    {next : PinConfig} (hdecoded : Firmware.pinConfigDecodeSet p d.engine.info.available = decoded)
    (hnext : decoded.config = some next.toFirmware) (hne : next ≠ s.config)
    (hdue : d.engine.periodicDue (nowUs + 1000) = false) :
    Mirrors Firmware.reasonConfigChanged [] ((s.record decoded).rewired next)
      (Lib.run Device.step d [.setPinConfig p nowUs, .task (nowUs + 1000) s.inputs]) := by
  have hfeatures := features_set d.engine p nowUs
  simp only [hdecoded, hnext, Option.getD_some] at hfeatures
  obtain ⟨c, hc, ha⟩ := (d.engine.setPinConfig_cases p nowUs).resolve_left fun hnone => by
    rw [Engine.acceptedConfig, hdecoded, hnext] at hnone
    cases hnone.1
  rw [Engine.acceptedConfig, hdecoded, hnext] at hc
  obtain rfl := Option.some.inj hc
  have hchanged : next.toFirmware ≠ d.engine.config := fun hsame =>
    hne (PinConfig.toFirmware_inj.mp (hsame.trans h.config.symm))
  have hsteady := h.steady_set ha
  rw [Lib.run_cons, Lib.run_cons, Lib.run_nil]
  have hinv₁ := Device.step_inv d (.setPinConfig p nowUs) h.inv
  have htimed₁ := Device.timed_step d (.setPinConfig p nowUs) h.timed
  have hinv₂ := Device.step_inv _ (.task (nowUs + 1000) s.inputs) hinv₁
  have htimed₂ := Device.timed_step _ (.task (nowUs + 1000) s.inputs) htimed₁
  -- the settle ends with this task call, and nothing else is due
  have he : ((d.step (.setPinConfig p nowUs)).step (.task (nowUs + 1000) s.inputs)).engine =
      (d.engine.setPinConfig p nowUs).finishSettle s.inputs := by
    have hsettles : (d.engine.setPinConfig p nowUs).settles (nowUs + 1000) = true := by
      rw [Engine.settles, ha.settleActive, ha.deadline, if_pos hchanged, decide_eq_true hchanged,
        Bool.or_true, Bool.true_and]
      exact decide_eq_true (BitVec.le_refl (nowUs + Firmware.settleUs))
    have hdue' : (d.engine.setPinConfig p nowUs).periodicDue (nowUs + 1000) = false := by
      simpa only [Engine.periodicDue, ha.lastSentUs] using hdue
    simp only [Device.step, task_settles hsettles hsteady hdue']
  have hsent : ((d.step (.setPinConfig p nowUs)).step (.task (nowUs + 1000) s.inputs)).sent = d.sent := by
    simp [Device.sent_step, Device.committed]
  rw [← he] at hsteady
  generalize (d.step (.setPinConfig p nowUs)).step (.task (nowUs + 1000) s.inputs) = d₂ at *
  rw [Engine.finishSettle_eq] at he
  have hconfig : d₂.engine.config = next.toFirmware := by rw [he]; exact ha.config
  have hentry : ∀ n, Engine.sameEntry d.engine.config next.toFirmware n = decide (s.config n = next n) :=
    fun n => by
      rw [← h.config]
      exact sameEntry_iff s.config next n
  exact
    { inv := hinv₂
      timed := htimed₂
      steady := hsteady
      reasons := by
        rw [he, ha.configChanged, decide_eq_true hchanged, Bool.or_true, if_pos rfl,
          ha.pendingReasons, h.reasons]
        rfl
      events := by rw [he]; exact (congrArg (fun q => q.toList) ha.queue).trans h.events
      room := by rw [he]; exact (congrArg (fun q => q.overflowed) ha.queue).trans h.room
      info := by rw [he]; exact (congrArg Prod.fst hfeatures :).trans h.info
      config := hconfig.symm
      result := by rw [he]; exact (congrArg (fun f => f.2.result) hfeatures :).symm
      resultGpio := by rw [he]; exact (congrArg (fun f => f.2.resultGpio) hfeatures :).symm
      requestId := by rw [he]; exact (congrArg (fun f => f.2.requestId) hfeatures :).symm
      input := h.input_rewired next
      output := fun n hn => by
        refine (h.output_rewired next n hn).trans ?_
        have hmode : next.toFirmware.mode n = modeOutput :=
          of_decide_eq_true ((isOutput_iff next n).symm.trans hn)
        have hparam : next.toFirmware.param n = (next n).param := rfl
        rw [he]
        simp only [ha.outputLevels, Engine.appliedLevel, hentry, decide_eq_true_iff, hmode,
          hparam, decide_true, Bool.true_and]
      unused := h.unused_rewired next
      low := low_writePins _ _ _ h.low
      overflow := h.overflow
      nextSeq := by rw [he]; exact h.nextSeq.trans ha.nextSeq.symm
      lastSeq := by
        rw [he]
        exact h.lastSeq.trans (congrArg (fun e => if e.hasSent then e.lastSeq else 0) ha.rest :).symm
      sent := by rw [hsent]; exact h.sent }

/-- A Set and the turn of the loop a millisecond later. -/
theorem set (h : Mirrors 0 [] s d) (hinfo : s.info.available = d.engine.info.available)
    (p : List U8) {nowUs : U64} (hdue : d.engine.periodicDue (nowUs + 1000) = false) :
    Mirrors 0 [] (s.writeConfig p)
      (Lib.run Device.step d
        [.setPinConfig p nowUs, .task (nowUs + 1000) s.inputs, .send (nowUs + 1000) true]) := by
  have hdecoded : Firmware.pinConfigDecodeSet p d.engine.info.available =
      Firmware.pinConfigDecodeSet p s.info.available := by
    rw [hinfo]
  have hlast : (d.step (.setPinConfig p nowUs)).engine.lastSentUs = d.engine.lastSentUs :=
    d.lastSentUs_step (.setPinConfig p nowUs)
  have hlater : (d.step (.setPinConfig p nowUs)).engine.periodicDue (nowUs + 1000) = false := by
    simpa only [Engine.periodicDue, hlast] using hdue
  cases hc : (Firmware.pinConfigDecodeSet p s.info.available).config with
  | none =>
    rw [writeConfig_rejected hc]
    have hrecorded : Mirrors 0 [] _ (d.step (.setPinConfig p nowUs)) :=
      h.set_recorded hdecoded fun next hnext => by
        rw [hc] at hnext
        cases hnext
    exact (hrecorded.task hlater _).send_nothing _
  | some accepted =>
    obtain ⟨next, rfl⟩ := PinConfig.exists_toFirmware (Firmware.decodeSet_config.mp hc).1.2 |>.imp
      fun next hnext => hnext.trans (Firmware.decodeSet_config.mp hc).2.symm
    rw [writeConfig_accepted hc]
    split_ifs with hsame
    · have hrecorded : Mirrors 0 [] _ (d.step (.setPinConfig p nowUs)) :=
        h.set_recorded hdecoded fun other hother => by
          rw [hc] at hother
          rw [← Option.some.inj hother, hsame, h.config]
      exact (hrecorded.task hlater _).send_nothing _
    · exact (h.set_applied hdecoded hc hsame hdue).send (Nat.zero_le _) (Or.inl (by decide)) _

end Mirrors

end Hidpin.Testing
