import Hidpin.Firmware.Electrical
import Hidpin.Firmware.MainLoop
import Hidpin.Firmware.Pin
import Hidpin.Lib.Simulation

/-! The main loop while the host reconfigures the pins (`firmware/app/main.c`): `tud_task` hands over every
    request, the Sets of a pin configuration included. The loop drives the device through its calls, and the
    interrupts, the edge buffer and the calls together lose no electrical change of a tracked pin. -/

namespace Hidpin.Firmware

/-- A step of the loop or of a pin, or a Set that `tud_task` handles. -/
inductive LoopStep where
  | main (i : MainStep)
  | setPinConfig (payload : List U8) (nowUs : U64)
  deriving DecidableEq

namespace Main

/-- The main loop with the Sets that arrive between two iterations. -/
def loopStep (m : Main) : LoopStep → Main
  | .main i => m.step i
  | .setPinConfig payload nowUs =>
    match m.phase with
    | .start => { m with engine := m.engine.setPinConfig payload nowUs }
    | _ => m

/-! ### The calls of the loop -/

/-- The engine calls of a step. -/
def calls (m : Main) : MainStep → List Op
  | .output payload =>
    match m.phase with
    | .start => [.output payload]
    | _ => []
  | .suspend =>
    match m.phase with
    | .start => [.usbReset]
    | _ => []
  | .popEdge =>
    match m.phase with
    | .drain => (m.edges.pop.map fun r => Op.onEdge r.1.gpio r.1.level r.1.timeUs).toList
    | _ => []
  | .resync =>
    match m.phase with
    | .resync nowUs => [.resync m.pins nowUs]
    | _ => []
  | .task =>
    match m.phase with
    | .task nowUs => [.task nowUs m.pins]
    | _ => []
  | .report unmounted send =>
    match m.phase with
    | .report nowUs =>
      (if unmounted then [.usbReset] else []) ++ (send.map fun accepted => Op.send nowUs accepted).toList
    | _ => []
  | _ => []

/-- The calls of the engine in such a step. -/
def loopCalls (m : Main) : LoopStep → List Op
  | .main i => m.calls i
  | .setPinConfig payload nowUs =>
    match m.phase with
    | .start => [.setPinConfig payload nowUs]
    | _ => []

/-- The device that the loop drives. -/
def device (m : Main) (d : Device) (is : List LoopStep) : Device :=
  Lib.run Device.step d (Lib.scripts loopStep Device.step (fun m _ i => m.loopCalls i) m d is)

/-- The engine of the loop is that of the device. -/
theorem engine_calls {m : Main} {d : Device} (h : d.engine = m.engine) (i : LoopStep) :
    (Lib.run Device.step d (m.loopCalls i)).engine = (m.loopStep i).engine := by
  cases i with
  | main i =>
    cases i with
    | change n timeUs => exact h
    | popEdge =>
      simp only [loopCalls, loopStep, calls, step]
      cases m.phase <;> try exact h
      cases m.edges.pop with
      | none => exact h
      | some r => simp [Device.step, h]
    | report unmounted send =>
      simp only [loopCalls, loopStep, calls, step]
      cases m.phase <;> try exact h
      cases unmounted <;> cases send <;> simp [Device.step, finish, h]
    | _ =>
      simp only [loopCalls, loopStep, calls, step]
      cases m.phase <;> first | exact h | simp [Device.step, h]
  | setPinConfig payload nowUs =>
    simp only [loopCalls, loopStep]
    cases m.phase <;> first | exact h | simp [Device.step, h]

theorem engine_device {m : Main} {d : Device} (h : d.engine = m.engine) (is : List LoopStep) :
    (m.device d is).engine = (Lib.run loopStep m is).engine :=
  Lib.simulates (R := fun _ (m : Main) (d : Device) => d.engine = m.engine) (A := fun _ _ => True)
    (c := fun _ => 0)
    (n := 0) (fun _ _ _ i h _ => engine_calls h i) is h fun _ _ => trivial

/-! ### Electrical changes -/

/-- Whether the loop has been through the buffer in this iteration. -/
def drained (m : Main) : Bool :=
  match m.phase with
  | .start => false
  | .drain => false
  | _ => true

/-- Unless a dropped edge is still to be noticed, the buffered edges of a tracked pin lead from what the
    engine has seen to the present value. A pin that waits for its first reading may have edges from before
    the Set until the loop has been through the buffer. -/
structure LoopInv (m : Main) : Prop where
  edges : m.edges.WF
  gpio : ∀ edge ∈ m.edges.toList, ∃ n : Gpio, edge.gpio = n.toU8
  engine : ∃ published, m.engine.Inv published
  view : m.edges.overflow = false → ∀ n, modeIsInput (m.engine.config.mode n) = true →
    m.engine.isTracking n = true ∨ m.drained = true →
    Lib.replay RawEdge.gpio RawEdge.level m.edges.toList n.toU8 (m.seen n) = hasBit m.pins n

namespace LoopInv
variable {m m' : Main}

/-- A step that leaves the buffer and the pins alone and tells the engine nothing new of a pin. -/
theorem of_seen (h : LoopInv m) (he : ∃ published, m'.engine.Inv published) (hedges : m'.edges = m.edges)
    (hpins : m'.pins = m.pins)
    (hseen : ∀ n, modeIsInput (m'.engine.config.mode n) = true →
      m'.engine.isTracking n = true ∨ m'.drained = true →
      modeIsInput (m.engine.config.mode n) = true ∧ (m.engine.isTracking n = true ∨ m.drained = true) ∧
        m'.seen n = m.seen n) : LoopInv m' where
  edges := by rw [hedges]; exact h.edges
  gpio := by rw [hedges]; exact h.gpio
  engine := he
  view ho n hn hknown := by
    obtain ⟨hin, hbefore, heq⟩ := hseen n hn hknown
    rw [hedges] at ho ⊢
    rw [heq, hpins]
    exact h.view ho n hin hbefore

theorem change (h : LoopInv m) (n : Gpio) (timeUs : U64) : LoopInv (m.change n timeUs) := by
  have hflip : ∀ k, k ≠ n → hasBit (flip m.pins n) k = hasBit m.pins k := fun k hk => by
    simp [flip, hk]
  have hseen : ∀ k, k ≠ n → (m.change n timeUs).seen k = m.seen k := fun k hk => by
    simp only [seen, Main.change, hflip k hk]
  by_cases hin : modeIsInput (m.engine.config.mode n) = true
  · have hedges := edges_change hin timeUs
    refine ⟨by rw [hedges]; exact EdgeBuffer.wf_push h.edges _, ?_, h.engine, fun ho k hk hknown => ?_⟩
    · rw [hedges]
      intro edge hedge
      rcases EdgeBuffer.mem_push h.edges hedge with hold | rfl
      · exact h.gpio edge hold
      · exact ⟨n, rfl⟩
    · rw [hedges] at ho ⊢
      rw [EdgeBuffer.toList_push h.edges _ ho, Lib.replay_concat]
      rw [EdgeBuffer.overflow_push, Bool.or_eq_false_iff] at ho
      by_cases hkn : k = n
      · subst hkn; rw [if_pos rfl]; rfl
      · rw [if_neg fun hc => hkn (toU8_injective hc).symm, hseen k hkn, h.view ho.1 k hk hknown]
        exact (hflip k hkn).symm
  · have hedges : (m.change n timeUs).edges = m.edges := by simp [Main.change, hin]
    refine ⟨by rw [hedges]; exact h.edges, by rw [hedges]; exact h.gpio, h.engine, fun ho k hk hknown => ?_⟩
    rw [hedges] at ho ⊢
    have hkn : k ≠ n := fun hc => hin (hc ▸ hk)
    rw [hseen k hkn, h.view ho k hk hknown]
    exact (hflip k hkn).symm

/-- A request leaves the electrical values of the pins that stay tracked alone. -/
theorem kept {d : Device} (h : d.Inv) {op : Op} {n : Gpio}
    (hop : ∀ a, d.action n op = some a → ∃ param nowUs, a = .retime param nowUs)
    (ht : (d.step op).engine.isTracking n = true) :
    d.engine.isTracking n = true ∧ ((d.step op).engine.debounce n).raw = (d.engine.debounce n).raw := by
  have hview : ((d.step op).engine.debounce n) = _ := congrArg Prod.fst (Device.pinView_act h n op)
  rw [hview]
  rcases Device.tracked_before h ht with hold | ⟨level, param, ha⟩
  · refine ⟨hold, ?_⟩
    cases ha : d.action n op with
    | none => rfl
    | some a =>
      obtain ⟨param, nowUs, rfl⟩ := hop a ha
      exact Debounce.raw_setTime _ _ _
  · obtain ⟨_, _, hc⟩ := hop _ ha
    cases hc

/-- A request of the host, or the end of an iteration. -/
theorem request (h : LoopInv m) {c : PinConfig} (hc : m.engine.Inv c) (hr : ∀ nowUs, m.phase ≠ .resync nowUs)
    (op : Op)
    (hop : ∀ n a, Device.action ⟨m.engine, [], c⟩ n op = some a → ∃ param nowUs, a = .retime param nowUs) :
    LoopInv { m with engine := (Device.step ⟨m.engine, [], c⟩ op).engine, phase := .start } := by
  have hinv : Device.Inv ⟨m.engine, [], c⟩ := hc
  refine h.of_seen ⟨_, Device.step_inv _ op hinv⟩ rfl rfl fun n _ hknown => ?_
  have ht : (Device.step ⟨m.engine, [], c⟩ op).engine.isTracking n = true := by
    rcases hknown with ht | hd
    · exact ht
    · exact absurd hd (by simp [drained])
  obtain ⟨hold, hraw⟩ := kept hinv (hop n) ht
  refine ⟨((Engine.isTracking_iff _ n).mp hold).2.2, Or.inl hold, ?_⟩
  have hseen : m.seen n = (m.engine.debounce n).raw := by
    cases hp : m.phase <;> simp_all [seen]
  rw [hseen]
  simpa [seen, ht] using hraw

theorem popEdge (h : LoopInv m) (hp : m.phase = .drain) : LoopInv (m.step .popEdge) := by
  obtain ⟨c, hc⟩ := h.engine
  simp only [step, hp]
  cases hpop : m.edges.pop with
  | none =>
    have hnil := (EdgeBuffer.pop_eq_none h.edges).mp hpop
    refine ⟨h.edges, h.gpio, h.engine, fun ho n hn _ => ?_⟩
    cases ht : m.engine.isTracking n with
    | false => simp [hnil, seen, ht]
    | true =>
      have hview := h.view ho n hn (Or.inl ht)
      simpa [hnil, seen, ht, hp] using hview
  | some r =>
    obtain ⟨edge, edges⟩ := r
    obtain ⟨hwf, hover, hlist⟩ := EdgeBuffer.pop_eq_some h.edges hpop
    obtain ⟨g, hg⟩ := h.gpio edge (by rw [hlist]; exact List.mem_cons_self)
    have hf := m.engine.frame_onEdge edge.gpio edge.level edge.timeUs
    refine ⟨hwf, fun e he => h.gpio e (by rw [hlist]; exact List.mem_cons_of_mem _ he), ⟨c, ?_⟩,
      fun ho n hn hknown => ?_⟩
    · exact Device.step_inv ⟨m.engine, [], c⟩ (.onEdge _ _ _) hc
    · have ht : m.engine.isTracking n = true := by
        rcases hknown with ht | hd
        · exact (hf.isTracking n).symm.trans ht
        · exact absurd hd (by simp [drained])
      have hview := h.view (by rw [← hover]; exact ho) n (by rw [← hf.config]; exact hn) (Or.inl ht)
      have ht' := (hf.isTracking n).trans ht
      rw [hlist, Lib.replay_cons, hg] at hview
      simp only [seen, hp, ht, if_true] at hview
      rw [hg] at ht'
      simp only [seen, hg, ht', if_true, Engine.raw_onEdge]
      by_cases hgn : n = g
      · subst hgn
        simpa [ht] using hview
      · have hne : g.toU8 ≠ n.toU8 := fun hc => hgn (toU8_injective hc).symm
        simpa [hgn, hne] using hview

theorem takeOverflow (h : LoopInv m) {nowUs : U64} (hp : m.phase = .overflow nowUs)
    (hstale : m.staleOverflow .takeOverflow = false) : LoopInv (m.step .takeOverflow) := by
  have hd : m.drained = true := by rw [drained, hp]
  simp only [step, hp]
  refine ⟨⟨h.edges.head_lt, h.edges.tail_lt⟩, h.gpio, h.engine, fun _ n hn _ => ?_⟩
  by_cases ho : m.edges.overflow = true
  · -- the newest buffered edge has the present value, so the reading of the pins agrees with it
    simp only [staleOverflow, hp, ho, Bool.true_and, decide_eq_false_iff_not, not_exists, not_and,
      not_not] at hstale
    have hnew := hstale n hn
    rw [newest, ← Lib.replay_eq_lastOf] at hnew
    simpa [seen, ho] using hnew
  · have hview := h.view (by simpa using ho) n hn (Or.inr hd)
    simp only [seen, hp] at hview
    simpa [seen, ho] using hview

theorem resync (h : LoopInv m) {nowUs : U64} (hp : m.phase = .resync nowUs) : LoopInv (m.step .resync) := by
  obtain ⟨c, hc⟩ := h.engine
  have hf := m.engine.frame_resync m.pins nowUs
  have hd : m.drained = true := by rw [drained, hp]
  simp only [step, hp]
  refine h.of_seen ⟨c, Device.step_inv ⟨m.engine, [], c⟩ (.resync _ _) hc⟩ rfl rfl fun n hn _ => ?_
  refine ⟨by rw [← hf.config]; exact hn, Or.inr hd, ?_⟩
  simp only [seen, hp, Engine.raw_resync, hf.isTracking]
  split_ifs <;> rfl

/-- A task call gives the engine no value of a pin but the ones it reads. -/
theorem raw_task {e : Engine} {c : PinConfig} (hc : e.Inv c) {n : Gpio}
    (hn : modeIsInput (e.config.mode n) = true) (nowUs : U64) (inputs : U32) :
    (if (e.task nowUs inputs).isTracking n then ((e.task nowUs inputs).debounce n).raw
        else hasBit inputs n) =
      if e.isTracking n then (e.debounce n).raw else hasBit inputs n := by
  have hinv : Device.Inv ⟨e, [], c⟩ := hc
  have htrack : e.isTracking n = true → (e.task nowUs inputs).isTracking n = true := fun ht => by
    rw [Engine.task_eq, Engine.isTracking_pollTask]
    split_ifs
    · rw [Engine.isTracking_finishSettle]
      exact hn
    · exact ht
  cases ht : (e.task nowUs inputs).isTracking n with
  | false =>
    have hold : ¬ e.isTracking n = true := fun hold => absurd (ht.symm.trans (htrack hold)) (by decide)
    rw [if_neg hold]
    rfl
  | true =>
    have hview : (e.task nowUs inputs).debounce n = _ :=
      congrArg Prod.fst (Device.pinView_act hinv n (.task nowUs inputs))
    rw [hview, if_pos rfl]
    have ht : (Device.step ⟨e, [], c⟩ (.task nowUs inputs)).engine.isTracking n = true := ht
    rcases Device.tracked_before hinv ht with hold | ⟨level, param, ha⟩
    · have hold : e.isTracking n = true := hold
      have hset := ((Engine.isTracking_iff _ n).mp hold).2.1
      have ha : Device.action ⟨e, [], c⟩ n (.task nowUs inputs) = some (.poll nowUs) := by
        simp [Device.action, hset, hold]
      rw [ha, if_pos hold]
      exact Debounce.raw_poll (e.debounce n) nowUs
    · have hset : hasBit e.settling n = true := by
        cases Device.causes_of_action ha with
        | settle _ _ _ hset => exact hset
      have hold : ¬ e.isTracking n = true := by simp [Engine.isTracking, hset]
      rw [ha, if_neg hold]
      cases Device.causes_of_action ha
      rfl

theorem task (h : LoopInv m) {nowUs : U64} (hp : m.phase = .task nowUs) : LoopInv (m.step .task) := by
  obtain ⟨c, hc⟩ := h.engine
  have hd : m.drained = true := by rw [drained, hp]
  have hconfig : (m.engine.task nowUs m.pins).config = m.engine.config := by
    have hstep := Device.config_step ⟨m.engine, [], c⟩ (.task nowUs m.pins)
    rwa [Device.step, Device.accepts] at hstep
  simp only [step, hp]
  refine h.of_seen ⟨_, Device.step_inv ⟨m.engine, [], c⟩ (.task nowUs m.pins) hc⟩ rfl rfl fun n hn _ => ?_
  have hn : modeIsInput (m.engine.config.mode n) = true := by rw [← hconfig]; exact hn
  have hraw := raw_task hc hn nowUs m.pins
  refine ⟨hn, Or.inr hd, ?_⟩
  simp only [seen, hp]
  exact hraw

theorem finish (h : LoopInv m) {nowUs : U64} (hp : m.phase = .report nowUs) (unmounted : Bool)
    (send : Option Bool) : LoopInv (m.finish nowUs unmounted send) := by
  have hr : ∀ t, m.phase ≠ .resync t := by simp [hp]
  obtain ⟨c, hc⟩ := h.engine
  have hreset : LoopInv
      { m with engine := if unmounted then m.engine.usbReset else m.engine, phase := .start } := by
    cases unmounted
    · exact h.request hc hr .getPinConfig (by simp [Device.action])
    · exact h.request hc hr .usbReset (by simp [Device.action])
  simp only [Main.finish]
  cases send with
  | none => exact hreset
  | some accepted =>
    obtain ⟨c', hc'⟩ := hreset.engine
    exact hreset.request hc' (by simp) (.send nowUs accepted) (by simp [Device.action])

end LoopInv

theorem loopInv_main (m : Main) (i : MainStep) (h : LoopInv m) (hstale : m.staleOverflow i = false) :
    LoopInv (m.step i) := by
  obtain ⟨c, hc⟩ := h.engine
  have hwait : ∀ phase : Phase, (∀ t, m.phase ≠ .resync t) → (∀ t, phase ≠ .resync t) →
      { m with phase := phase }.drained = m.drained → LoopInv { m with phase := phase } := by
    intro phase hr hr' hd
    refine h.of_seen h.engine rfl rfl fun n hn hknown => ⟨hn, by rwa [hd] at hknown, ?_⟩
    cases hp : m.phase <;> cases phase <;> simp_all [seen]
  cases i with
  | change n timeUs => exact h.change n timeUs
  | output payload =>
    cases hp : m.phase <;> simp only [step, hp] <;> try exact h
    rw [← hp]
    have := h.request hc (by simp [hp]) (.output payload) (by simp [Device.action])
    simpa [hp, Device.step] using this
  | suspend =>
    cases hp : m.phase <;> simp only [step, hp] <;> try exact h
    have := h.request hc (by simp [hp]) .usbReset (by simp [Device.action])
    simpa [hp, Device.step] using this
  | tudTask =>
    cases hp : m.phase <;> simp only [step, hp] <;> try exact h
    exact hwait .drain (by simp [hp]) (by simp) (by simp [drained, hp])
  | popEdge =>
    cases hp : m.phase with
    | drain => exact h.popEdge hp
    | _ => simp only [step, hp]; exact h
  | readClock nowUs =>
    cases hp : m.phase <;> simp only [step, hp] <;> try exact h
    exact hwait (.overflow nowUs) (by simp [hp]) (by simp) (by simp [drained, hp])
  | takeOverflow =>
    cases hp : m.phase with
    | overflow nowUs => exact h.takeOverflow hp hstale
    | _ => simp only [step, hp]; exact h
  | resync =>
    cases hp : m.phase with
    | resync nowUs => exact h.resync hp
    | _ => simp only [step, hp]; exact h
  | task =>
    cases hp : m.phase with
    | task nowUs => exact h.task hp
    | _ => simp only [step, hp]; exact h
  | report unmounted send =>
    cases hp : m.phase with
    | report nowUs => simp only [step, hp]; exact h.finish hp unmounted send
    | _ => simp only [step, hp]; exact h

/-- A step that takes the flag over stale edges. -/
def staleLoop (m : Main) : LoopStep → Bool
  | .main i => m.staleOverflow i
  | .setPinConfig _ _ => false

/-- Every step keeps the invariant, unless it takes the flag over stale edges. -/
theorem loopInv_step (m : Main) (i : LoopStep) (h : LoopInv m) (hstale : m.staleLoop i = false) :
    LoopInv (m.loopStep i) := by
  cases i with
  | main i => exact loopInv_main m i h hstale
  | setPinConfig payload nowUs =>
    obtain ⟨c, hc⟩ := h.engine
    cases hp : m.phase <;> simp only [loopStep, hp] <;> try exact h
    have hset := h.request hc (by simp [hp]) (.setPinConfig payload nowUs) fun n a ha => by
      cases Device.causes_of_action ha with
      | retime _ _ next _ _ => exact ⟨_, _, rfl⟩
    simpa [hp, Device.step] using hset

theorem loopInv_boot (info : DeviceInfo) (nowUs : U64) (pins : U32) : LoopInv (boot info nowUs pins) := by
  have h := inv_boot info nowUs pins
  exact ⟨h.edges, h.gpio, h.engine, fun ho n hn _ => h.view ho n hn⟩

theorem loopInv_run (info : DeviceInfo) (startUs : U64) (pins : U32) (is : List LoopStep)
    (hstale : ∀ x ∈ Lib.steps loopStep (boot info startUs pins) is, x.1.staleLoop x.2 = false) :
    LoopInv (Lib.run loopStep (boot info startUs pins) is) :=
  Lib.run_invariant (A := fun m i => staleLoop m i = false) loopInv_step is (loopInv_boot info startUs pins)
    hstale

/-- No electrical change of a pin is lost while the host reconfigures the pins, as long as the flag is never
    taken over stale edges. -/
theorem synchronised_while_configured (info : DeviceInfo) (startUs : U64) (pins : U32) (is : List LoopStep)
    (hstale : ∀ x ∈ Lib.steps loopStep (boot info startUs pins) is, x.1.staleLoop x.2 = false) :
    (Lib.run loopStep (boot info startUs pins) is).Synchronised := by
  have h := loopInv_run info startUs pins is hstale
  intro hp hnil ho n ht
  have hview := h.view ho n ((Engine.isTracking_iff _ n).mp ht).2.2 (Or.inl ht)
  simpa [hnil, seen, hp, ht] using hview

/-- A whole iteration, with room for two edges. -/
def iteration (nowUs : U64) (send : Option Bool) : List LoopStep :=
  [.main .tudTask, .main .popEdge, .main .popEdge, .main .popEdge, .main (.readClock nowUs),
    .main .takeOverflow, .main .resync, .main .task, .main (.report false send)]

/-- A Set of one pin, without chattering removal. -/
def onePin (mode : U8) : List U8 :=
  encodePinConfig ⟨0, 0xFF, 7, ⟨fun n => if n.val = 0 then mode else 0, fun _ => 0⟩⟩

/-- A pin changes, is made an input with a pull-down while its edge waits in the buffer, changes again before
    it is read for the first time, and once more after that. -/
def reconfigured (n : Gpio) : List LoopStep :=
  iteration 1000 none ++
    [.main (.change n 1100), .setPinConfig (onePin modeInputPulldown) 1200, .main (.change n 1300)] ++
    iteration 1400 none ++ iteration 2300 none ++ [.main (.change n 2400)] ++ iteration 2500 (some true)

/-- After that a burst. -/
def burstAfterSet (n : Gpio) : List LoopStep := reconfigured n ++ (burst n 2600 3000).map .main

/-- The flag is set and taken after a Set, and the last change is not lost. -/
theorem synchronised_while_configured_run :
    ((Lib.steps loopStep (boot (Device.sampleInfo 1) 0 1) (burstAfterSet 0)).any fun x =>
      decide (x.2 = .main .takeOverflow) && x.1.edges.overflow) = true ∧
    ((Lib.run loopStep (boot (Device.sampleInfo 1) 0 1) (burstAfterSet 0)).engine.debounce 0).raw =
      true := by
  have hend : let m := Lib.run loopStep (boot (Device.sampleInfo 1) 0 1) (burstAfterSet 0)
      m.phase = .start ∧ m.edges.toList = [] ∧ m.edges.overflow = false ∧ m.engine.isTracking 0 = true ∧
        hasBit m.pins 0 = true := by decide +kernel
  obtain ⟨hphase, hnil, hoverflow, htracking, hhigh⟩ := hend
  have h := synchronised_while_configured (Device.sampleInfo 1) 0 1 (burstAfterSet 0) (by decide +kernel)
    hphase hnil hoverflow 0 htracking
  exact ⟨by decide +kernel, h.trans hhigh⟩

end Main

end Hidpin.Firmware
