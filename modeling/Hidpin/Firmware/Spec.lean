import Hidpin.Firmware.Engine

/-! What each engine function does, one lemma per function: the observation of one tracked pin, from
    which edges, resyncs and polls are built; the first reading of the settling pins; and a Set, pin
    by pin. Later modules use these lemmas and do not unfold the functions. -/

namespace Hidpin.Firmware

/-- What one observation may do to a debouncer: `r.2` is the start time when a level is confirmed. -/
structure Debounce.Change (d : Debounce) (r : Debounce × Option U64) : Prop where
  wf : r.1.WF
  keep : r.2 = none → r.1.confirmed = d.confirmed
  flip : r.2 ≠ none → r.1.confirmed = !d.confirmed

theorem Debounce.change_edge (d : Debounce) (raw : Bool) (now : U64) : d.Change (d.edge raw now) := by
  refine ⟨d.wf_edge raw now, fun h => ?_, fun h => ?_⟩
  · rw [d.confirmed_edge, if_pos h]
  · rw [d.confirmed_edge, if_neg h]
    revert h
    simp only [Debounce.edge]
    split_ifs with h1 h2
    · simp
    · cases raw <;> cases hc : d.confirmed <;> simp_all
    · simp

theorem Debounce.change_poll {d : Debounce} (hd : d.WF) (now : U64) : d.Change (d.poll now) := by
  refine ⟨d.wf_poll hd now, fun h => by rw [d.poll_of_none h], fun h => ?_⟩
  revert h
  simp only [Debounce.poll]
  split_ifs with h1 h2
  · simp
  · simp
  · have hp : d.pending = true := by
      by_contra hc
      exact h1 (Or.inl (by simpa using hc))
    have hne : d.raw ≠ d.confirmed := hd.mp hp
    intro _
    cases hr : d.raw <;> cases hc : d.confirmed <;> simp_all

/-- The engine without the fields that observing pins changes. -/
def Engine.core (e : Engine) : Engine :=
  { e with debounce := fun _ => Debounce.zero, queue := EventQueue.init, activity := 0, history := [] }

/-- The engines agree but for the debouncers, the queue and what is counted with it. -/
def Frame (e e' : Engine) : Prop := e'.core = e.core

namespace Frame
variable {e e' e'' : Engine}

theorem refl (e : Engine) : Frame e e := rfl

theorem trans (h : Frame e e') (h' : Frame e' e'') : Frame e e'' := Eq.trans h' h

theorem hw (h : Frame e e') : e'.hw = e.hw := (congrArg Engine.hw h :)
theorem info (h : Frame e e') : e'.info = e.info := (congrArg Engine.info h :)
theorem config (h : Frame e e') : e'.config = e.config := (congrArg Engine.config h :)
theorem monitored (h : Frame e e') : e'.monitored = e.monitored := (congrArg Engine.monitored h :)
theorem outputs (h : Frame e e') : e'.outputs = e.outputs := (congrArg Engine.outputs h :)
theorem settling (h : Frame e e') : e'.settling = e.settling := (congrArg Engine.settling h :)
theorem reportedLevels (h : Frame e e') : e'.reportedLevels = e.reportedLevels :=
  (congrArg Engine.reportedLevels h :)
theorem outputLevels (h : Frame e e') : e'.outputLevels = e.outputLevels :=
  (congrArg Engine.outputLevels h :)
theorem settleActive (h : Frame e e') : e'.settleActive = e.settleActive :=
  (congrArg Engine.settleActive h :)
theorem settleDeadlineUs (h : Frame e e') : e'.settleDeadlineUs = e.settleDeadlineUs :=
  (congrArg Engine.settleDeadlineUs h :)
theorem configChanged (h : Frame e e') : e'.configChanged = e.configChanged :=
  (congrArg Engine.configChanged h :)
theorem pendingReasons (h : Frame e e') : e'.pendingReasons = e.pendingReasons :=
  (congrArg Engine.pendingReasons h :)
theorem lastSentUs (h : Frame e e') : e'.lastSentUs = e.lastSentUs :=
  (congrArg Engine.lastSentUs h :)

theorem isTracking (h : Frame e e') (n : Gpio) : e'.isTracking n = e.isTracking n := by
  simp only [Engine.isTracking, h.monitored, h.settling, h.config]

end Frame

namespace Engine

/-- One observation of a pin: its debouncer moves on, and a confirmed level becomes an event. -/
def observe (e : Engine) (n : Gpio) (r : Debounce × Option U64) : Engine :=
  let e := { e with debounce := Function.update e.debounce n r.1 }
  match r.2 with
  | some startUs => e.pushEvent n r.1.confirmed startUs
  | none => e

theorem frame_observe (e : Engine) (n : Gpio) (r : Debounce × Option U64) : Frame e (e.observe n r) := by
  rcases r with ⟨d, _ | start⟩ <;> rfl

@[simp] theorem debounce_observe (e : Engine) (n : Gpio) (r : Debounce × Option U64) :
    (e.observe n r).debounce = Function.update e.debounce n r.1 := by
  rcases r with ⟨d, _ | start⟩ <;> rfl

theorem edgeAt_eq_observe (e : Engine) (n : Gpio) (raw : Bool) (now : U64) :
    e.edgeAt n raw now = e.observe n ((e.debounce n).edge raw now) := by
  have h := (e.debounce n).confirmed_edge raw now
  simp only [edgeAt, observe]
  cases hs : ((e.debounce n).edge raw now).2 with
  | none => rfl
  | some start =>
    rw [hs, if_neg (by simp)] at h
    simp only [h]

theorem pollPin_eq_observe (e : Engine) (n : Gpio) (now : U64) :
    e.pollPin now n = if e.isTracking n then e.observe n ((e.debounce n).poll now) else e := by
  unfold pollPin observe
  rfl

theorem onEdge_toU8 (e : Engine) (n : Gpio) (raw : Bool) (now : U64) :
    e.onEdge n.toU8 raw now = if e.isTracking n then e.edgeAt n raw now else e := by
  have hn : n.toU8.toNat = n.val := by
    have := n.lt_word
    simp only [Gpio.toU8, BitVec.toNat_ofNat]
    omega
  have hlt : n.toU8.toNat < gpioCount := by rw [hn]; exact n.isLt
  have hfin : (⟨n.toU8.toNat, hlt⟩ : Gpio) = n := Fin.ext hn
  rw [onEdge, dif_pos hlt, hfin]

/-! ### Observing pins

A property kept by every observation of a tracked pin is kept by edges, resyncs and polls. -/

section Observing
variable {P : Engine → Prop} (hwf : ∀ e, P e → ∀ n, (e.debounce n).WF)
  (hobs : ∀ e n r, P e → e.isTracking n = true → (e.debounce n).Change r → P (e.observe n r))
include hobs

theorem edgeAt_preserves {e : Engine} (h : P e) (n : Gpio) (ht : e.isTracking n = true) (raw : Bool)
    (now : U64) : P (e.edgeAt n raw now) := by
  rw [edgeAt_eq_observe]
  exact hobs e n _ h ht ((e.debounce n).change_edge raw now)

theorem onEdge_preserves {e : Engine} (h : P e) (gpio : U8) (raw : Bool) (now : U64) :
    P (e.onEdge gpio raw now) := by
  unfold onEdge
  split_ifs with h1 h2
  · exact edgeAt_preserves hobs h _ h2 raw now
  · exact h
  · exact h

theorem resync_preserves {e : Engine} (h : P e) (raw : U32) (now : U64) : P (e.resync raw now) := by
  refine Lib.foldl_preserves (fun e n he => ?_) _ h
  unfold resyncPin
  split_ifs
  · exact onEdge_preserves hobs he _ _ _
  · exact he

include hwf

theorem pollPins_preserves {e : Engine} (h : P e) (now : U64) : P (e.pollPins now) := by
  refine Lib.foldl_preserves (fun e n he => ?_) _ h
  rw [pollPin_eq_observe]
  split_ifs with ht
  · exact hobs e n _ he ht (Debounce.change_poll (hwf e he n) now)
  · exact he

end Observing

theorem frame_onEdge (e : Engine) (gpio : U8) (raw : Bool) (now : U64) : Frame e (e.onEdge gpio raw now) :=
  onEdge_preserves (P := Frame e) (fun e' n r h _ _ => h.trans (e'.frame_observe n r)) (Frame.refl e) _ _ _

theorem frame_resync (e : Engine) (raw : U32) (now : U64) : Frame e (e.resync raw now) :=
  resync_preserves (P := Frame e) (fun e' n r h _ _ => h.trans (e'.frame_observe n r)) (Frame.refl e) _ _

theorem frame_pollPin (e : Engine) (now : U64) (n : Gpio) : Frame e (e.pollPin now n) := by
  rw [pollPin_eq_observe]
  split_ifs
  · exact frame_observe _ _ _
  · exact Frame.refl e

theorem frame_pollPins (e : Engine) (now : U64) : Frame e (e.pollPins now) :=
  Lib.foldl_preserves (P := Frame e) (fun e' n h => h.trans (e'.frame_pollPin now n)) _ (Frame.refl e)

/-! ### The electrical values seen -/

theorem raw_observe (e : Engine) (n m : Gpio) (r : Debounce × Option U64) :
    ((e.observe n r).debounce m).raw = if m = n then r.1.raw else (e.debounce m).raw := by
  rw [debounce_observe]
  by_cases hm : m = n
  · subst hm; simp
  · simp [hm]

theorem raw_onEdge (e : Engine) (n m : Gpio) (raw : Bool) (now : U64) :
    ((e.onEdge n.toU8 raw now).debounce m).raw =
      if m = n ∧ e.isTracking n = true then raw else (e.debounce m).raw := by
  rw [onEdge_toU8]
  by_cases ht : e.isTracking n = true
  · by_cases hm : m = n <;> simp [ht, edgeAt_eq_observe, hm]
  · simp [ht]

theorem raw_resync (e : Engine) (raw : U32) (now : U64) (n : Gpio) :
    ((e.resync raw now).debounce n).raw =
      if e.isTracking n then hasBit raw n else (e.debounce n).raw := by
  refine Lib.foldl_component (v := fun (e : Engine) n => (e.debounce n).raw) (I := Frame e)
    (g := fun n b => if e.isTracking n then hasBit raw n else b)
    (fun e' n h => ?_) (fun e' n h => ?_) (fun e' n m _ hm => ?_) (Frame.refl e) n
  · unfold resyncPin
    split_ifs
    · exact h.trans (e'.frame_onEdge _ _ _)
    · exact h
  · simp only [resyncPin, rawBit_eq, h.isTracking]
    by_cases ht : e.isTracking n = true
    · by_cases hr : hasBit raw n = (e'.debounce n).raw
      · simp [ht, hr]
      · simp [ht, hr, raw_onEdge, h.isTracking]
    · simp [ht]
  · simp only [resyncPin]
    split_ifs
    · rw [raw_onEdge]
      simp [hm]
    · rfl

theorem raw_pollPins (e : Engine) (now : U64) (n : Gpio) :
    ((e.pollPins now).debounce n).raw = (e.debounce n).raw := by
  refine Lib.foldl_component (v := fun (e : Engine) n => (e.debounce n).raw) (I := fun _ => True)
    (g := fun _ b => b) (fun _ _ _ => trivial) (fun e' n _ => ?_) (fun e' n m _ hm => ?_) trivial n
  · rw [pollPin_eq_observe]
    split_ifs
    · rw [raw_observe]; simp
    · rfl
  · rw [pollPin_eq_observe]
    split_ifs
    · rw [raw_observe]; simp [hm]
    · rfl

/-! ### The first reading of settling pins -/

/-- The debouncers after the first reading. -/
def readDebounce (e : Engine) (inputs : U32) (n : Gpio) : Debounce :=
  if hasBit e.settling n then Debounce.reset (hasBit inputs n) (e.config.param n) else e.debounce n

/-- The reported levels after the first reading, before they are limited to the monitored pins. -/
def readLevels (e : Engine) (inputs : U32) : U32 :=
  (List.finRange gpioCount).foldl
    (fun (r : U32) (n : Gpio) =>
      if hasBit e.settling n then withBit r n (hasBit inputs n) else r) e.reportedLevels

theorem readPins_eq (inputs : U32) : ∀ (l : List Gpio) (e : Engine),
    l.foldl (fun e n => e.readPin inputs n) e =
      { e with
        debounce := fun m => if m ∈ l then e.readDebounce inputs m else e.debounce m
        reportedLevels := l.foldl
          (fun (r : U32) (n : Gpio) =>
      if hasBit e.settling n then withBit r n (hasBit inputs n) else r)
          e.reportedLevels }
  | [], e => by simp
  | n :: l, e => by
    rw [List.foldl_cons, readPins_eq inputs l]
    by_cases h : hasBit e.settling n = true
    · have hd : ∀ m, (if m ∈ l then (e.readPin inputs n).readDebounce inputs m
          else (e.readPin inputs n).debounce m) =
          if m ∈ n :: l then e.readDebounce inputs m else e.debounce m := by
        intro m
        by_cases hm : m = n
        · subst hm
          simp [readPin, readDebounce, h]
        · simp [readPin, readDebounce, h, hm]
      simp only [hd]
      simp [readPin, h]
    · have hr : e.readPin inputs n = e := by simp [readPin, h]
      have hd : ∀ m, (if m ∈ l then e.readDebounce inputs m else e.debounce m) =
          if m ∈ n :: l then e.readDebounce inputs m else e.debounce m := by
        intro m
        by_cases hm : m = n
        · subst hm
          simp [readDebounce, h]
        · simp [hm]
      simp only [hr, hd, List.foldl_cons, if_neg h]

theorem hasBit_readLevels (e : Engine) (inputs : U32) (n : Gpio) :
    hasBit (e.readLevels inputs) n =
      if hasBit e.settling n then hasBit inputs n else hasBit e.reportedLevels n := by
  refine Lib.foldl_component (v := hasBit) (I := fun _ => True)
    (g := fun n b => if hasBit e.settling n then hasBit inputs n else b)
    (fun _ _ _ => trivial) (fun r n _ => ?_) (fun r n m _ hm => ?_) trivial n
  · by_cases h : hasBit e.settling n = true <;> simp [h]
  · by_cases h : hasBit e.settling n = true <;> simp [h, hm]

/-- `finish_settle`, field by field. -/
theorem finishSettle_eq (e : Engine) (inputs : U32) :
    e.finishSettle inputs =
      { e with
        debounce := e.readDebounce inputs
        reportedLevels := e.readLevels inputs &&& inputMask e.config
        monitored := inputMask e.config
        outputs := outputMask e.config
        settling := 0
        settleActive := false
        pendingReasons :=
          if e.configChanged then e.pendingReasons ||| reasonConfigChanged else e.pendingReasons
        configChanged := false } := by
  simp only [finishSettle, readPins_eq, List.mem_finRange, if_true, readLevels]
  cases h : e.configChanged <;> simp

/-! ### Applying an accepted Set -/

/-- The entries of a pin in two configurations agree. -/
def sameEntry (c next : PinConfig) (n : Gpio) : Bool :=
  decide (c.mode n = next.mode n ∧ c.param n = next.param n)

/-- The new debouncer of a pin: only a changed debounce time touches it. -/
def appliedDebounce (e : Engine) (next : PinConfig) (nowUs : U64) (n : Gpio) : Debounce :=
  if !sameEntry e.config next n && modeIsInput (next.mode n) &&
      decide (e.config.mode n = next.mode n) then
    (e.debounce n).setTime (next.param n) nowUs
  else e.debounce n

/-- Whether a pin waits for its first reading after the Set. -/
def appliedSettling (c next : PinConfig) (n : Gpio) (b : Bool) : Bool :=
  if sameEntry c next n then b
  else modeIsInput (next.mode n) && (decide (c.mode n ≠ next.mode n) || b)

/-- The output level of a pin after the Set. -/
def appliedLevel (c next : PinConfig) (n : Gpio) (b : Bool) : Bool :=
  if sameEntry c next n then b else decide (next.mode n = modeOutput) && decide (next.param n ≠ 0)

/-- The hardware calls for a pin. -/
def appliedCalls (c next : PinConfig) (n : Gpio) : List HwCall :=
  if sameEntry c next n then []
  else if modeIsInput (next.mode n) then
    if c.mode n = next.mode n then [] else [.setInput n (next.mode n)]
  else if next.mode n = modeOutput then [.setOutput n (decide (next.param n ≠ 0))]
  else [.setUnused n]

/-- The engine without the fields that the loop over the entries changes. -/
def applyCore (e : Engine) : Engine :=
  { e with debounce := fun _ => Debounce.zero, settling := 0, outputLevels := 0, hw := [] }

theorem applyPin_core (next : PinConfig) (nowUs : U64) (s : Engine × Bool) (n : Gpio) :
    (applyPin next nowUs s n).1.applyCore = s.1.applyCore := by
  simp only [applyPin]
  split_ifs <;> rfl

theorem applyPin_changed (next : PinConfig) (nowUs : U64) (s : Engine × Bool) (n : Gpio) :
    (applyPin next nowUs s n).2 = (s.2 || !sameEntry s.1.config next n) := by
  simp only [applyPin]
  by_cases hsame : s.1.config.mode n = next.mode n ∧ s.1.config.param n = next.param n
  · simp [sameEntry, hsame]
  · rw [if_neg hsame, sameEntry, decide_eq_false hsame, Bool.not_false, Bool.or_true]
    split_ifs <;> rfl

theorem applyPin_hw (next : PinConfig) (nowUs : U64) (s : Engine × Bool) (n : Gpio) :
    (applyPin next nowUs s n).1.hw = s.1.hw ++ appliedCalls s.1.config next n := by
  simp only [applyPin, appliedCalls, sameEntry]
  split_ifs <;> simp_all

theorem applyPin_debounce (next : PinConfig) (nowUs : U64) (s : Engine × Bool) (n m : Gpio) :
    (applyPin next nowUs s n).1.debounce m =
      if m = n then s.1.appliedDebounce next nowUs n else s.1.debounce m := by
  simp only [applyPin, appliedDebounce, sameEntry]
  by_cases hm : m = n
  · subst hm
    split_ifs <;> simp_all
  · split_ifs <;> simp_all

theorem applyPin_settling (next : PinConfig) (nowUs : U64) (s : Engine × Bool) (n m : Gpio) :
    hasBit (applyPin next nowUs s n).1.settling m =
      if m = n then appliedSettling s.1.config next n (hasBit s.1.settling n)
      else hasBit s.1.settling m := by
  simp only [applyPin, appliedSettling, sameEntry]
  by_cases hm : m = n
  · subst hm
    split_ifs <;> simp_all
  · split_ifs <;> simp_all

theorem applyPin_outputLevels (next : PinConfig) (nowUs : U64) (s : Engine × Bool) (n m : Gpio) :
    hasBit (applyPin next nowUs s n).1.outputLevels m =
      if m = n then appliedLevel s.1.config next n (hasBit s.1.outputLevels n)
      else hasBit s.1.outputLevels m := by
  have hin : modeIsInput (next.mode n) = true → next.mode n ≠ modeOutput := by
    intro h hc
    rw [hc, modeIsInput_modeOutput] at h
    exact absurd h (by decide)
  simp only [applyPin, appliedLevel, sameEntry]
  by_cases hm : m = n
  · subst hm
    split_ifs <;> simp_all
  · split_ifs <;> simp_all

theorem config_of_applyCore {e e' : Engine} (h : e'.applyCore = e.applyCore) : e'.config = e.config :=
  (congrArg Engine.config h :)

theorem applyPins_core (e : Engine) (next : PinConfig) (nowUs : U64) :
    (e.applyPins next nowUs).1.applyCore = e.applyCore :=
  Lib.foldl_preserves (P := fun s : Engine × Bool => s.1.applyCore = e.applyCore)
    (fun s n h => (applyPin_core next nowUs s n).trans h) _ rfl

/-- A component of the loop state that the body changes pin by pin, from the old entries. -/
theorem applyPins_component {β : Type} {v : Engine → Gpio → β} {g : Gpio → β → β} (e : Engine)
    (next : PinConfig) (nowUs : U64)
    (hself : ∀ s n, s.1.applyCore = e.applyCore →
      v (applyPin next nowUs s n).1 n = g n (v s.1 n))
    (hother : ∀ s n m, m ≠ n → v (applyPin next nowUs s n).1 m = v s.1 m) (m : Gpio) :
    v (e.applyPins next nowUs).1 m = g m (v e m) :=
  Lib.foldl_component (v := fun (s : Engine × Bool) => v s.1)
    (I := fun s => s.1.applyCore = e.applyCore)
    (fun s n h => (applyPin_core next nowUs s n).trans h) hself (fun s n m _ hm => hother s n m hm) rfl m

theorem applyPins_hw (next : PinConfig) (nowUs : U64) : ∀ (l : List Gpio) (s : Engine × Bool),
    (l.foldl (applyPin next nowUs) s).1.hw = s.1.hw ++ l.flatMap (appliedCalls s.1.config next)
  | [], s => by simp
  | n :: l, s => by
    rw [List.foldl_cons, applyPins_hw next nowUs l, applyPin_hw,
      config_of_applyCore (applyPin_core next nowUs s n), List.flatMap_cons, List.append_assoc]

theorem applyPins_changed (next : PinConfig) (nowUs : U64) : ∀ (l : List Gpio) (s : Engine × Bool),
    (l.foldl (applyPin next nowUs) s).2 = (s.2 || l.any fun n => !sameEntry s.1.config next n)
  | [], s => by simp
  | n :: l, s => by
    rw [List.foldl_cons, applyPins_changed next nowUs l, applyPin_changed,
      config_of_applyCore (applyPin_core next nowUs s n), List.any_cons, Bool.or_assoc]

theorem any_differs (c next : PinConfig) :
    ((List.finRange gpioCount).any fun n => !sameEntry c next n) = decide (next ≠ c) := by
  rw [Bool.eq_iff_iff, List.any_eq_true, decide_eq_true_iff]
  constructor
  · rintro ⟨n, _, hn⟩ rfl
    simp [sameEntry] at hn
  · intro hne
    by_contra hall
    refine hne ?_
    have hsame : ∀ n, c.mode n = next.mode n ∧ c.param n = next.param n := by
      intro n
      by_contra hn
      exact hall ⟨n, List.mem_finRange n, by simp only [sameEntry, decide_eq_false hn, Bool.not_false]⟩
    cases c; cases next
    simp only [PinConfig.mk.injEq]
    exact ⟨funext fun n => (hsame n).1.symm, funext fun n => (hsame n).2.symm⟩

/-- The engine without the fields that say which configuration is in force and how the latest Set
    ended. -/
def clearConfig (e : Engine) : Engine :=
  { e with
    result := 0
    resultGpio := 0
    requestId := 0
    config := blankConfig
    configChanged := false
    settleActive := false
    settleDeadlineUs := 0 }

/-- An accepted Set, field by field; the fields not named keep their values. -/
structure Applied (e : Engine) (next : PinConfig) (nowUs : U64) (e' : Engine) : Prop where
  config : e'.config = next
  debounce : ∀ n, e'.debounce n = e.appliedDebounce next nowUs n
  settling : ∀ n, hasBit e'.settling n = appliedSettling e.config next n (hasBit e.settling n)
  outputLevels : ∀ n, hasBit e'.outputLevels n = appliedLevel e.config next n (hasBit e.outputLevels n)
  outputHigh : ∀ i, gpioCount ≤ i → e'.outputLevels.getLsbD i = e.outputLevels.getLsbD i
  hw : e'.hw = e.hw ++ (List.finRange gpioCount).flatMap (appliedCalls e.config next)
  configChanged : e'.configChanged = (e.configChanged || decide (next ≠ e.config))
  settleActive : e'.settleActive = (e.settleActive || decide (next ≠ e.config))
  deadline : e'.settleDeadlineUs = if next ≠ e.config then nowUs + settleUs else e.settleDeadlineUs
  rest : e'.applyCore.clearConfig = e.applyCore.clearConfig

theorem applyPins_outputHigh (e : Engine) (next : PinConfig) (nowUs : U64) {i : ℕ} (hi : gpioCount ≤ i) :
    (e.applyPins next nowUs).1.outputLevels.getLsbD i = e.outputLevels.getLsbD i := by
  have hstep : ∀ (s : Engine × Bool) n, s.1.outputLevels.getLsbD i = e.outputLevels.getLsbD i →
      (applyPin next nowUs s n).1.outputLevels.getLsbD i = e.outputLevels.getLsbD i := by
    intro s n h
    refine Eq.trans ?_ h
    simp only [applyPin]
    split_ifs <;> simp only [getLsbD_withBit_of_le _ _ _ hi]
  unfold applyPins
  generalize List.finRange gpioCount = l
  exact Lib.foldl_preserves (P := fun s : Engine × Bool =>
    s.1.outputLevels.getLsbD i = e.outputLevels.getLsbD i) hstep l rfl

/-- The loop over the entries of an accepted Set, component by component. -/
theorem applyPins_spec (e : Engine) (next : PinConfig) (nowUs : U64) :
    (∀ n, (e.applyPins next nowUs).1.debounce n = e.appliedDebounce next nowUs n) ∧
    (∀ n, hasBit (e.applyPins next nowUs).1.settling n =
      appliedSettling e.config next n (hasBit e.settling n)) ∧
    (∀ n, hasBit (e.applyPins next nowUs).1.outputLevels n =
      appliedLevel e.config next n (hasBit e.outputLevels n)) := by
  refine ⟨fun n => ?_, ?_, ?_⟩
  · have h := e.applyPins_component (v := Engine.debounce) next nowUs
      (g := fun n d => { e with debounce := Function.update e.debounce n d }.appliedDebounce next nowUs n)
      (fun s n hs => ?_) (fun s n m hm => ?_) n
    · rw [h]; simp [appliedDebounce]
    · simp [applyPin_debounce, appliedDebounce, config_of_applyCore hs]
    · simp [applyPin_debounce, hm]
  · refine e.applyPins_component (v := fun e n => hasBit e.settling n) next nowUs
      (fun s n hs => ?_) (fun s n m hm => ?_)
    · simp [applyPin_settling, config_of_applyCore hs]
    · simp [applyPin_settling, hm]
  · refine e.applyPins_component (v := fun e n => hasBit e.outputLevels n) next nowUs
      (fun s n hs => ?_) (fun s n m hm => ?_)
    · simp [applyPin_outputLevels, config_of_applyCore hs]
    · simp [applyPin_outputLevels, hm]

theorem applied (e : Engine) (next : PinConfig) (nowUs : U64) :
    Applied e next nowUs (e.applyConfig next nowUs) := by
  obtain ⟨hdeb, hset, hout⟩ := e.applyPins_spec next nowUs
  have hhigh := fun i => e.applyPins_outputHigh next nowUs (i := i)
  have hcore := e.applyPins_core next nowUs
  have hhw := applyPins_hw next nowUs (List.finRange gpioCount) (e, false)
  have hchanged := applyPins_changed next nowUs (List.finRange gpioCount) (e, false)
  rw [any_differs, Bool.false_or] at hchanged
  unfold applyConfig
  rw [← applyPins] at hhw hchanged
  generalize e.applyPins next nowUs = s at *
  by_cases hne : next = e.config
  · have hsame : s.2 = false := by rw [hchanged]; simp [hne]
    simp only [hsame, Bool.false_eq_true, if_false]
    refine ⟨?_, hdeb, hset, hout, hhigh, hhw, ?_, ?_, ?_, congrArg clearConfig hcore⟩
    · rw [config_of_applyCore hcore, hne]
    · have h : s.1.configChanged = e.configChanged := (congrArg Engine.configChanged hcore :)
      simp [h, hne]
    · have h : s.1.settleActive = e.settleActive := (congrArg Engine.settleActive hcore :)
      simp [h, hne]
    · have h : s.1.settleDeadlineUs = e.settleDeadlineUs := (congrArg Engine.settleDeadlineUs hcore :)
      simp [h, hne]
  · have hdiff : s.2 = true := by rw [hchanged]; simp [hne]
    simp only [hdiff, if_true]
    refine ⟨rfl, hdeb, hset, hout, hhigh, hhw, ?_, ?_, ?_, (congrArg clearConfig hcore :)⟩
    · simp [startSettle, hne]
    · simp [startSettle, hne]
    · simp [startSettle, hne]

/-- The configuration a Set asks for, when the engine accepts it. -/
def acceptedConfig (e : Engine) (payload : List U8) : Option PinConfig :=
  (pinConfigDecodeSet payload e.info.available).config

theorem acceptedConfig_eq_some {e : Engine} {payload : List U8} {next : PinConfig} :
    e.acceptedConfig payload = some next ↔
      (payload.length = reportPayloadLen ∧ (payloadConfig payload).Valid e.info.available) ∧
        next = payloadConfig payload := decodeSet_config

/-- A Set only records its result or is applied. -/
theorem setPinConfig_cases (e : Engine) (payload : List U8) (nowUs : U64) :
    (e.acceptedConfig payload = none ∧
      e.setPinConfig payload nowUs = e.recordResult (pinConfigDecodeSet payload e.info.available)) ∨
    ∃ next, e.acceptedConfig payload = some next ∧
      Applied e next nowUs (e.setPinConfig payload nowUs) := by
  unfold acceptedConfig setPinConfig
  cases hc : (pinConfigDecodeSet payload e.info.available).config with
  | none => exact Or.inl ⟨rfl, by simp only [hc]⟩
  | some next =>
    refine Or.inr ⟨next, rfl, ?_⟩
    have ha := (e.recordResult (pinConfigDecodeSet payload e.info.available)).applied next nowUs
    simp only [hc]
    exact ⟨ha.config, ha.debounce, ha.settling, ha.outputLevels, ha.outputHigh, ha.hw, ha.configChanged,
      ha.settleActive, ha.deadline, ha.rest⟩

namespace Applied
variable {e e' : Engine} {next : PinConfig} {nowUs : U64}

theorem info (h : Applied e next nowUs e') : e'.info = e.info := (congrArg Engine.info h.rest :)
theorem queue (h : Applied e next nowUs e') : e'.queue = e.queue := (congrArg Engine.queue h.rest :)
theorem monitored (h : Applied e next nowUs e') : e'.monitored = e.monitored :=
  (congrArg Engine.monitored h.rest :)
theorem outputs (h : Applied e next nowUs e') : e'.outputs = e.outputs :=
  (congrArg Engine.outputs h.rest :)
theorem reportedLevels (h : Applied e next nowUs e') : e'.reportedLevels = e.reportedLevels :=
  (congrArg Engine.reportedLevels h.rest :)
theorem pendingReasons (h : Applied e next nowUs e') : e'.pendingReasons = e.pendingReasons :=
  (congrArg Engine.pendingReasons h.rest :)
theorem lastSentUs (h : Applied e next nowUs e') : e'.lastSentUs = e.lastSentUs :=
  (congrArg Engine.lastSentUs h.rest :)
theorem nextSeq (h : Applied e next nowUs e') : e'.nextSeq = e.nextSeq :=
  (congrArg Engine.nextSeq h.rest :)
theorem history (h : Applied e next nowUs e') : e'.history = e.history :=
  (congrArg Engine.history h.rest :)

end Applied

end Engine

end Hidpin.Firmware
