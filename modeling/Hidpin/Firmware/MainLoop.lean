import Hidpin.Firmware.EdgeBuffer
import Hidpin.Firmware.Machine
import Hidpin.Lib.Replay

/-! The main loop and the GPIO interrupt (`firmware/app/main.c`). The interrupt may come between any two
    steps of the loop; each electrical change of an input pin is one interrupt. The configuration is not
    changed, the other requests of the host may come at any time `tud_task` runs. -/

namespace Hidpin.Firmware

/-- Where the main loop is: before `tud_task`, in the loop over the buffered edges, before the clock is
    read, and then with the time it read. -/
inductive Phase where
  | start
  | drain
  | clock
  | overflow (nowUs : U64)
  | resync (nowUs : U64)
  | task (nowUs : U64)
  | report (nowUs : U64)
  deriving DecidableEq

/-- The engine, the edge buffer, the electrical values of all pins and the place in the loop. -/
structure Main where
  engine : Engine
  edges : EdgeBuffer
  pins : U32
  phase : Phase

/-- What happens next: a pin changes, `tud_task` handles an output command or a suspend, or the loop
    takes its next step. A step that is not next in the loop does nothing. -/
inductive MainStep where
  | change (gpio : Gpio) (timeUs : U64)
  | output (payload : List U8)
  | suspend
  | tudTask
  | popEdge
  | readClock (nowUs : U64)
  | takeOverflow
  | resync
  | task
  | report (unmounted : Bool) (send : Option Bool)
  deriving DecidableEq

namespace Main

/-- After `hp_engine_init`. -/
def boot (info : DeviceInfo) (nowUs : U64) (pins : U32) : Main where
  engine := Engine.init info nowUs
  edges := EdgeBuffer.init
  pins := pins
  phase := .start

/-- The pins after an electrical change of one of them. -/
def flip (pins : U32) (n : Gpio) : U32 := withBit pins n (!hasBit pins n)

/-- An electrical change. Only input pins have the interrupt enabled. -/
def change (m : Main) (n : Gpio) (timeUs : U64) : Main :=
  let pins := flip m.pins n
  { m with
    pins := pins
    edges :=
      if modeIsInput (m.engine.config.mode n) then
        m.edges.edgeIrq n.toU8 (hasBit pins n) (!hasBit pins n) (hasBit pins n) timeUs
      else m.edges }

/-- The end of an iteration: a lost USB configuration, then a send attempt if there is one. -/
def finish (m : Main) (nowUs : U64) (unmounted : Bool) (send : Option Bool) : Main :=
  let e := if unmounted then m.engine.usbReset else m.engine
  { m with
    engine :=
      match send with
      | some accepted => (e.sendStatusReport nowUs accepted).1
      | none => e
    phase := .start }

/-- A step of the main loop, or a change of a pin between two of its steps. -/
def step (m : Main) : MainStep → Main
  | .change n timeUs => m.change n timeUs
  | .output payload =>
    match m.phase with
    | .start => { m with engine := (m.engine.output payload).1 }
    | _ => m
  | .suspend =>
    match m.phase with
    | .start => { m with engine := m.engine.usbReset }
    | _ => m
  | .tudTask =>
    match m.phase with
    | .start => { m with phase := .drain }
    | _ => m
  | .popEdge =>
    match m.phase with
    | .drain =>
      match m.edges.pop with
      | some (edge, edges) =>
        { m with engine := m.engine.onEdge edge.gpio edge.level edge.timeUs, edges := edges }
      | none => { m with phase := .clock }
    | _ => m
  | .readClock nowUs =>
    match m.phase with
    | .clock => { m with phase := .overflow nowUs }
    | _ => m
  | .takeOverflow =>
    match m.phase with
    | .overflow nowUs =>
      { m with
        edges := m.edges.takeOverflow.2
        phase := if m.edges.takeOverflow.1 then .resync nowUs else .task nowUs }
    | _ => m
  | .resync =>
    match m.phase with
    | .resync nowUs => { m with engine := m.engine.resync m.pins nowUs, phase := .task nowUs }
    | _ => m
  | .task =>
    match m.phase with
    | .task nowUs => { m with engine := m.engine.task nowUs m.pins, phase := .report nowUs }
    | _ => m
  | .report unmounted send =>
    match m.phase with
    | .report nowUs => m.finish nowUs unmounted send
    | _ => m

/-- The level of the newest buffered edge of a pin. -/
def newest (m : Main) (n : Gpio) : Option Bool :=
  Lib.lastOf RawEdge.gpio RawEdge.level m.edges.toList n.toU8

/-- The flag is taken while the newest buffered edge of an input pin is older than the change that was
    dropped: it does not have the present value of the pin. -/
def staleOverflow (m : Main) : MainStep → Bool
  | .takeOverflow =>
    match m.phase with
    | .overflow _ =>
      m.edges.overflow && decide (∃ n, modeIsInput (m.engine.config.mode n) = true ∧
        (m.newest n).getD (hasBit m.pins n) ≠ hasBit m.pins n)
    | _ => false
  | _ => false

/-- At the start of an iteration with nothing buffered and no edge dropped, the engine has the
    electrical value of every tracked pin. -/
def Synchronised (m : Main) : Prop :=
  m.phase = .start → m.edges.toList = [] → m.edges.overflow = false →
    ∀ n, m.engine.isTracking n = true → (m.engine.debounce n).raw = hasBit m.pins n

/-- The value the engine will hold for a pin when it has seen no further edge: a resync that is due
    will read the pin. -/
def seen (m : Main) (n : Gpio) : Bool :=
  match m.phase with
  | .resync _ => hasBit m.pins n
  | _ => if m.engine.isTracking n then (m.engine.debounce n).raw else hasBit m.pins n

/-- Unless a dropped edge is still to be noticed, the buffered edges lead from what the engine has seen
    to the present values. -/
structure Inv (m : Main) : Prop where
  edges : m.edges.WF
  gpio : ∀ edge ∈ m.edges.toList, ∃ n : Gpio, edge.gpio = n.toU8
  engine : ∃ published, m.engine.Inv published
  view : m.edges.overflow = false → ∀ n, modeIsInput (m.engine.config.mode n) = true →
    Lib.replay RawEdge.gpio RawEdge.level m.edges.toList n.toU8 (m.seen n) = hasBit m.pins n

theorem edges_change {m : Main} {n : Gpio} (hin : modeIsInput (m.engine.config.mode n) = true)
    (timeUs : U64) :
    (m.change n timeUs).edges = m.edges.push ⟨n.toU8, hasBit (flip m.pins n) n, timeUs⟩ := by
  simp only [Main.change, hin, if_true, EdgeBuffer.edgeIrq]
  cases hasBit (flip m.pins n) n <;> rfl

namespace Inv
variable {m m' : Main}

/-- A step that moves on in the loop and keeps what was seen. -/
theorem of_seen (h : Inv m) (he : ∃ published, m'.engine.Inv published)
    (hc : m'.engine.config = m.engine.config) (hedges : m'.edges = m.edges) (hpins : m'.pins = m.pins)
    (hseen : ∀ n, modeIsInput (m.engine.config.mode n) = true → m'.seen n = m.seen n) : Inv m' where
  edges := by rw [hedges]; exact h.edges
  gpio := by rw [hedges]; exact h.gpio
  engine := he
  view ho n hn := by
    rw [hc] at hn
    rw [hedges] at ho ⊢
    rw [hseen n hn, hpins]
    exact h.view ho n hn

theorem change (h : Inv m) (n : Gpio) (timeUs : U64) : Inv (m.change n timeUs) := by
  have hflip : ∀ k, k ≠ n → hasBit (flip m.pins n) k = hasBit m.pins k := fun k hk => by
    simp [flip, hk]
  have hseen : ∀ k, k ≠ n → (m.change n timeUs).seen k = m.seen k := fun k hk => by
    simp only [seen, Main.change, hflip k hk]
  by_cases hin : modeIsInput (m.engine.config.mode n) = true
  · have hedges := edges_change hin timeUs
    refine ⟨by rw [hedges]; exact EdgeBuffer.wf_push h.edges _, ?_, h.engine, fun ho k hk => ?_⟩
    · rw [hedges]
      intro edge hedge
      rcases EdgeBuffer.mem_push h.edges hedge with hold | rfl
      · exact h.gpio edge hold
      · exact ⟨n, rfl⟩
    · rw [hedges] at ho ⊢
      rw [EdgeBuffer.toList_push h.edges _ ho, Lib.replay_concat]
      rw [EdgeBuffer.overflow_push, Bool.or_eq_false_iff] at ho
      by_cases hkn : k = n
      · subst hkn; rw [if_pos rfl]; rfl
      · rw [if_neg fun hc => hkn (toU8_injective hc).symm, hseen k hkn, h.view ho.1 k hk]
        exact (hflip k hkn).symm
  · have hedges : (m.change n timeUs).edges = m.edges := by simp [Main.change, hin]
    refine ⟨by rw [hedges]; exact h.edges, by rw [hedges]; exact h.gpio, h.engine, fun ho k hk => ?_⟩
    rw [hedges] at ho ⊢
    have hkn : k ≠ n := fun hc => hin (hc ▸ hk)
    rw [hseen k hkn, h.view ho k hk]
    exact (hflip k hkn).symm

/-- An engine operation that touches neither the debouncers nor what is tracked. -/
theorem of_request (h : Inv m) {phase phase' : Phase} (hp : m.phase = phase)
    (hr : ∀ nowUs, phase ≠ .resync nowUs) (hr' : ∀ nowUs, phase' ≠ .resync nowUs) {e : Engine}
    (he : ∃ published, e.Inv published) (hc : e.config = m.engine.config)
    (hd : ∀ n, (e.debounce n).raw = (m.engine.debounce n).raw)
    (ht : ∀ n, e.isTracking n = m.engine.isTracking n) : Inv { m with engine := e, phase := phase' } := by
  refine h.of_seen he hc rfl rfl fun n _ => ?_
  subst hp
  cases hm : m.phase <;> cases phase' <;> simp_all [seen]

theorem popEdge (h : Inv m) (hp : m.phase = .drain) : Inv (m.step .popEdge) := by
  simp only [step, hp]
  cases hpop : m.edges.pop with
  | none =>
    exact h.of_request hp (by simp) (by simp) h.engine rfl (fun _ => rfl) fun _ => rfl
  | some r =>
    obtain ⟨edge, edges⟩ := r
    obtain ⟨hwf, hover, hlist⟩ := EdgeBuffer.pop_eq_some h.edges hpop
    obtain ⟨g, hg⟩ := h.gpio edge (by rw [hlist]; exact List.mem_cons_self)
    obtain ⟨c, hc⟩ := h.engine
    have hf := m.engine.frame_onEdge edge.gpio edge.level edge.timeUs
    refine ⟨hwf, fun e he => h.gpio e (by rw [hlist]; exact List.mem_cons_of_mem _ he), ⟨c, ?_⟩,
      fun ho n hn => ?_⟩
    · exact Device.step_inv ⟨m.engine, [], c⟩ (.onEdge _ _ _) hc
    · have hview := h.view (by rw [← hover]; exact ho) n (by rw [← hf.config]; exact hn)
      rw [hlist, Lib.replay_cons, hg] at hview
      simp only [seen, hp] at hview ⊢
      rw [hf.isTracking, hg, Engine.raw_onEdge]
      by_cases hgn : n = g
      · subst hgn
        rw [if_pos rfl] at hview
        by_cases ht : m.engine.isTracking n = true
        · simpa [ht] using hview
        · simpa [ht] using Lib.replay_idem _ _ hview
      · have hne : g.toU8 ≠ n.toU8 := fun hc => hgn (toU8_injective hc).symm
        simpa [hgn, hne] using hview

theorem takeOverflow (h : Inv m) {nowUs : U64} (hp : m.phase = .overflow nowUs)
    (hstale : m.staleOverflow .takeOverflow = false) : Inv (m.step .takeOverflow) := by
  simp only [step, hp]
  refine ⟨⟨h.edges.head_lt, h.edges.tail_lt⟩, h.gpio, h.engine, fun _ n hn => ?_⟩
  by_cases ho : m.edges.overflow = true
  · -- the dropped edge is forgotten here, so the buffered ones have to lead to the present value
    simp only [staleOverflow, hp, ho, Bool.true_and, decide_eq_false_iff_not, not_exists, not_and,
      not_not] at hstale
    have hnew := hstale n hn
    rw [newest, ← Lib.replay_eq_lastOf] at hnew
    simpa [seen, ho] using hnew
  · have hview := h.view (by simpa using ho) n hn
    simp only [seen, hp] at hview
    simpa [seen, ho] using hview

theorem resync (h : Inv m) {nowUs : U64} (hp : m.phase = .resync nowUs) : Inv (m.step .resync) := by
  obtain ⟨c, hc⟩ := h.engine
  have hf := m.engine.frame_resync m.pins nowUs
  simp only [step, hp]
  refine h.of_seen ⟨c, Device.step_inv ⟨m.engine, [], c⟩ (.resync _ _) hc⟩ hf.config rfl rfl
    fun n _ => ?_
  simp only [seen, hp, Engine.raw_resync, hf.isTracking]
  split_ifs <;> rfl

theorem task (h : Inv m) {nowUs : U64} (hp : m.phase = .task nowUs) : Inv (m.step .task) := by
  obtain ⟨c, hc⟩ := h.engine
  have hinv := Device.step_inv ⟨m.engine, [], c⟩ (.task nowUs m.pins) hc
  have hpoll : ∀ (e : Engine) n, ((e.pollTask nowUs).debounce n).raw = (e.debounce n).raw ∧
      (e.pollTask nowUs).isTracking n = e.isTracking n ∧ (e.pollTask nowUs).config = e.config := by
    intro e n
    have hf := e.frame_pollPins nowUs
    unfold Engine.pollTask
    split_ifs
    · exact ⟨Engine.raw_pollPins e nowUs n, hf.isTracking n, hf.config⟩
    · exact ⟨Engine.raw_pollPins e nowUs n, hf.isTracking n, hf.config⟩
  simp only [step, hp]
  refine h.of_seen ⟨_, hinv⟩ ?_ rfl rfl fun n hn => ?_
  · rw [Engine.task_eq, (hpoll _ 0).2.2]
    split_ifs
    · rw [Engine.finishSettle_eq]
    · rfl
  · cases hs : m.engine.settles nowUs with
    | false =>
      simp only [seen, hp, Engine.task_eq, hs, Bool.false_eq_true, if_false, (hpoll _ n).1,
        (hpoll _ n).2.1]
    | true =>
      -- a pin that does not settle was tracked before, any other one is read now
      have htrack : (m.engine.finishSettle m.pins).isTracking n = true := by
        rw [Engine.isTracking_iff, Engine.finishSettle_eq]
        simp [hn]
      have hraw : ((m.engine.finishSettle m.pins).debounce n).raw =
          if hasBit m.engine.settling n then hasBit m.pins n else (m.engine.debounce n).raw := by
        rw [Engine.finishSettle_eq]
        simp only [Engine.readDebounce]
        split_ifs <;> rfl
      have hold : m.engine.isTracking n = !hasBit m.engine.settling n := by
        cases hset : hasBit m.engine.settling n with
        | true => simp [Engine.isTracking, hset]
        | false =>
          have hmon : hasBit m.engine.monitored n = true := by
            rw [hc.monitored, hasBit_inputMask, hc.kept n hn hset]
            exact hn
          simp [Engine.isTracking, hset, hmon, hn]
      simp only [seen, hp, Engine.task_eq, hs, if_true, (hpoll _ n).1, (hpoll _ n).2.1, htrack, hraw,
        hold]
      cases hasBit m.engine.settling n <;> rfl

/-- What the other operations of the loop leave alone. -/
theorem request_fields (e : Engine) :
    (∀ payload, (e.output payload).1.config = e.config ∧ (e.output payload).1.debounce = e.debounce ∧
      ∀ n, (e.output payload).1.isTracking n = e.isTracking n) ∧
    (e.usbReset.config = e.config ∧ e.usbReset.debounce = e.debounce ∧
      ∀ n, e.usbReset.isTracking n = e.isTracking n) ∧
    ∀ nowUs accepted, (e.sendStatusReport nowUs accepted).1.config = e.config ∧
      (e.sendStatusReport nowUs accepted).1.debounce = e.debounce ∧
      ∀ n, (e.sendStatusReport nowUs accepted).1.isTracking n = e.isTracking n := by
  refine ⟨fun payload => ?_, ?_, fun nowUs accepted => ?_⟩
  · simp only [Engine.output]
    split <;> exact ⟨rfl, rfl, fun _ => rfl⟩
  · simp only [Engine.usbReset]
    split_ifs <;> exact ⟨rfl, rfl, fun _ => rfl⟩
  · rw [Engine.sendStatusReport_eq]
    split_ifs <;> exact ⟨rfl, rfl, fun _ => rfl⟩

theorem finish (h : Inv m) {nowUs : U64} (hp : m.phase = .report nowUs) (unmounted : Bool)
    (send : Option Bool) : Inv (m.finish nowUs unmounted send) := by
  obtain ⟨c, hc⟩ := h.engine
  have hreset : ∃ e, (if unmounted then m.engine.usbReset else m.engine) = e ∧ e.Inv c ∧
      e.config = m.engine.config ∧ e.debounce = m.engine.debounce ∧
      ∀ n, e.isTracking n = m.engine.isTracking n := by
    obtain ⟨_, hu, _⟩ := request_fields m.engine
    cases unmounted
    · exact ⟨_, rfl, hc, rfl, rfl, fun _ => rfl⟩
    · exact ⟨_, rfl, hc.usbReset, hu⟩
  obtain ⟨e, heq, hinv, hcfg, hdeb, htrack⟩ := hreset
  simp only [Main.finish, heq]
  cases send with
  | none =>
    exact h.of_request hp (by simp) (by simp) ⟨c, hinv⟩ hcfg (fun n => by rw [hdeb]) htrack
  | some accepted =>
    obtain ⟨hcfg', hdeb', htrack'⟩ := (request_fields e).2.2 nowUs accepted
    exact h.of_request hp (by simp) (by simp) ⟨c, hinv.sendStatusReport nowUs accepted⟩
      (hcfg'.trans hcfg) (fun n => by rw [hdeb', hdeb]) fun n => (htrack' n).trans (htrack n)

end Inv

/-- Every step keeps the invariant, unless it takes the flag over stale edges. -/
theorem inv_step (m : Main) (i : MainStep) (h : Inv m) (hstale : m.staleOverflow i = false) :
    Inv (m.step i) := by
  obtain ⟨c, hc⟩ := h.engine
  cases i with
  | change n timeUs => exact h.change n timeUs
  | output payload =>
    obtain ⟨hcfg, hdeb, htrack⟩ := (Inv.request_fields m.engine).1 payload
    cases hp : m.phase <;> simp only [step, hp] <;> try exact h
    exact h.of_request hp (by simp) (by simp) ⟨c, hc.output payload⟩ hcfg
      (fun n => by rw [hdeb]) htrack
  | suspend =>
    obtain ⟨hcfg, hdeb, htrack⟩ := (Inv.request_fields m.engine).2.1
    cases hp : m.phase <;> simp only [step, hp] <;> try exact h
    exact h.of_request hp (by simp) (by simp) ⟨c, hc.usbReset⟩ hcfg (fun n => by rw [hdeb]) htrack
  | tudTask =>
    cases hp : m.phase <;> simp only [step, hp] <;> try exact h
    exact h.of_request hp (by simp) (by simp) h.engine rfl (fun _ => rfl) fun _ => rfl
  | popEdge =>
    cases hp : m.phase with
    | drain => exact h.popEdge hp
    | _ => simp only [step, hp]; exact h
  | readClock nowUs =>
    cases hp : m.phase <;> simp only [step, hp] <;> try exact h
    exact h.of_request hp (by simp) (by simp) h.engine rfl (fun _ => rfl) fun _ => rfl
  | takeOverflow =>
    cases hp : m.phase with
    | overflow nowUs => exact h.takeOverflow hp hstale
    | _ => simp only [step, hp]; exact h
  | resync =>
    cases hp : m.phase with
    | resync nowUs => exact h.resync hp
    | _ => simp only [step, hp]; exact h
  | task =>
    cases hp : m.phase with
    | task nowUs => exact h.task hp
    | _ => simp only [step, hp]; exact h
  | report unmounted send =>
    cases hp : m.phase with
    | report nowUs => simp only [step, hp]; exact h.finish hp unmounted send
    | _ => simp only [step, hp]; exact h

theorem inv_boot (info : DeviceInfo) (nowUs : U64) (pins : U32) : Inv (boot info nowUs pins) := by
  have hinv := Engine.inv_init info nowUs
  refine ⟨EdgeBuffer.wf_init, by simp [boot], ⟨_, hinv⟩, fun _ n _ => ?_⟩
  have hmon : hasBit (boot info nowUs pins).engine.monitored n = false := by
    rw [show (boot info nowUs pins).engine.monitored = _ from hinv.monitored, hasBit_inputMask]
    exact (by decide : modeIsInput 0 = false)
  simp [boot, seen, Engine.isTracking, show hasBit (Engine.init info nowUs).monitored n = false from hmon]

/-- When the flag is never taken over stale edges, no electrical change is lost. -/
theorem synchronised (info : DeviceInfo) (startUs : U64) (pins : U32) (is : List MainStep)
    (hstale : ∀ x ∈ Lib.steps step (boot info startUs pins) is, x.1.staleOverflow x.2 = false) :
    (Lib.run step (boot info startUs pins) is).Synchronised := by
  have h := Lib.run_invariant (A := fun m i => staleOverflow m i = false) inv_step is
    (inv_boot info startUs pins) hstale
  intro hp hnil ho n ht
  have hview := h.view ho n ((Engine.isTracking_iff _ n).mp ht).2.2
  simpa [hnil, seen, hp, ht] using hview

/-- A pin changes 257 times between two iterations, for which the buffer has not enough room, and an
    iteration that empties the buffer before it tests the flag. -/
def burst (n : Gpio) (timeUs nowUs : U64) : List MainStep :=
  List.replicate 257 (.change n timeUs) ++ [.tudTask] ++ List.replicate 256 .popEdge ++
    [.readClock nowUs, .takeOverflow, .resync, .task, .report false none]

/-- A start and a burst. -/
def burstAfterStart (n : Gpio) : List MainStep :=
  [.tudTask, .popEdge, .readClock 1000, .takeOverflow, .task, .report false none] ++ burst n 1500 2000

/-- The flag is set and taken, and the last change is not lost. -/
theorem synchronised_run :
    ((Lib.steps step (boot (Device.sampleInfo 1) 0 1) (burstAfterStart 0)).any fun x =>
      decide (x.2 = .takeOverflow) && x.1.edges.overflow) = true ∧
    ((Lib.run step (boot (Device.sampleInfo 1) 0 1) (burstAfterStart 0)).engine.debounce 0).raw = false := by
  have hend : let m := Lib.run step (boot (Device.sampleInfo 1) 0 1) (burstAfterStart 0)
      m.phase = .start ∧ m.edges.toList = [] ∧ m.edges.overflow = false ∧ m.engine.isTracking 0 = true ∧
        hasBit m.pins 0 = false := by decide +kernel
  obtain ⟨hphase, hnil, hoverflow, htracking, hlow⟩ := hend
  have h := synchronised (Device.sampleInfo 1) 0 1 (burstAfterStart 0) (by decide +kernel) hphase hnil
    hoverflow 0 htracking
  exact ⟨by decide +kernel, h.trans hlow⟩

/-! ### What a stale flag does -/

/-- The edges of a list, reported to the engine one after another. -/
def feed (e : Engine) (edges : List RawEdge) : Engine :=
  edges.foldl (fun e edge => e.onEdge edge.gpio edge.level edge.timeUs) e

theorem frame_feed (e : Engine) (edges : List RawEdge) : Frame e (feed e edges) :=
  Lib.foldl_preserves (P := Frame e) (fun e' _ h => h.trans (e'.frame_onEdge _ _ _)) edges (Frame.refl e)

theorem raw_feed {n : Gpio} : ∀ (edges : List RawEdge) (e : Engine),
    (∀ edge ∈ edges, ∃ g : Gpio, edge.gpio = g.toU8) → e.isTracking n = true →
    ((feed e edges).debounce n).raw =
      Lib.replay RawEdge.gpio RawEdge.level edges n.toU8 (e.debounce n).raw
  | [], _, _, _ => rfl
  | edge :: edges, e, hg, ht => by
      obtain ⟨⟨g, hedge⟩, hrest⟩ := List.forall_mem_cons.mp hg
      have ht' := ((e.frame_onEdge edge.gpio edge.level edge.timeUs).isTracking n).trans ht
      have hraw := Engine.raw_onEdge e g n edge.level edge.timeUs
      rw [← hedge] at hraw
      have ih := raw_feed edges _ hrest ht'
      rw [Lib.replay_cons, feed, List.foldl_cons]
      refine ih.trans ?_
      rw [hraw, hedge]
      by_cases hgn : n = g
      · subst hgn; simp [ht]
      · have hne : g.toU8 ≠ n.toU8 := fun hc => hgn (toU8_injective hc).symm
        simp [hgn, hne]

/-- Draining the buffer reports all of its edges. -/
theorem run_drain : ∀ (l : List RawEdge) (m : Main), m.phase = .drain → m.edges.WF → m.edges.toList = l →
    ∃ edges : EdgeBuffer, edges.WF ∧ edges.toList = [] ∧ edges.overflow = m.edges.overflow ∧
      Lib.run step m (List.replicate l.length .popEdge) =
        { m with engine := feed m.engine l, edges := edges }
  | [], m, _, hwf, hl => ⟨m.edges, hwf, hl, rfl, rfl⟩
  | edge :: l, m, hp, hwf, hl => by
      cases hpop : m.edges.pop with
      | none => rw [(EdgeBuffer.pop_eq_none hwf).mp hpop] at hl; exact absurd hl (by simp)
      | some r =>
        obtain ⟨edge', edges⟩ := r
        obtain ⟨hwf', ho', hl'⟩ := EdgeBuffer.pop_eq_some hwf hpop
        rw [hl, List.cons.injEq] at hl'
        obtain ⟨rfl, hrest⟩ := hl'
        obtain ⟨edges', hw, hn, ho, hrun⟩ := run_drain l
          { m with engine := m.engine.onEdge edge.gpio edge.level edge.timeUs, edges := edges } hp hwf'
          hrest.symm
        refine ⟨edges', hw, hn, ho.trans ho', ?_⟩
        rw [List.length_cons, List.replicate_succ, Lib.run_cons]
        simp only [step, hp, hpop] at hrun ⊢
        exact hrun

/-- After the settle a task call leaves the electrical values alone. -/
theorem raw_task {e : Engine} (hs : e.settleActive = false) (nowUs : U64) (inputs : U32) (n : Gpio) :
    ((e.task nowUs inputs).debounce n).raw = (e.debounce n).raw ∧
      (e.task nowUs inputs).isTracking n = e.isTracking n ∧
      (e.task nowUs inputs).settleActive = false := by
  have hf := e.frame_pollPins nowUs
  have hsettle : e.settles nowUs = false := by simp [Engine.settles, hs]
  rw [Engine.task_eq, hsettle]
  simp only [Bool.false_eq_true, if_false, Engine.pollTask]
  split_ifs
  · exact ⟨Engine.raw_pollPins e nowUs n, hf.isTracking n, hf.settleActive.trans hs⟩
  · exact ⟨Engine.raw_pollPins e nowUs n, hf.isTracking n, hf.settleActive.trans hs⟩

/-- When the flag is taken over a stale edge of a tracked pin, that pin is wrong an iteration later and
    stays so until it changes again. -/
theorem lost_of_stale {m : Main} {nowUs : U64} (hp : m.phase = .overflow nowUs) (hwf : m.edges.WF)
    (hg : ∀ edge ∈ m.edges.toList, ∃ g : Gpio, edge.gpio = g.toU8) (ho : m.edges.overflow = true)
    (hs : m.engine.settleActive = false) {n : Gpio} (ht : m.engine.isTracking n = true)
    (hnew : m.newest n = some (!hasBit m.pins n)) :
    ¬ (Lib.run step m ([.takeOverflow, .resync, .task, .report false none, .tudTask] ++
      List.replicate m.edges.toList.length .popEdge ++
      [.popEdge, .readClock nowUs, .takeOverflow, .task, .report false none])).Synchronised := by
  -- up to the loop over the edges, where the engine has the present value
  have hfirst : Lib.run step m [.takeOverflow, .resync, .task, .report false none, .tudTask] =
      { m with
        engine := (m.engine.resync m.pins nowUs).task nowUs m.pins
        edges := m.edges.takeOverflow.2
        phase := .drain } := by
    simp [Lib.run, step, hp, ho, finish]
  have hf := m.engine.frame_resync m.pins nowUs
  have hs1 : (m.engine.resync m.pins nowUs).settleActive = false := hf.settleActive.trans hs
  obtain ⟨_, htrack1, hs2⟩ := raw_task hs1 nowUs m.pins n
  have ht1 : ((m.engine.resync m.pins nowUs).task nowUs m.pins).isTracking n = true :=
    htrack1.trans ((hf.isTracking n).trans ht)
  -- the loop itself
  obtain ⟨edges, hwf', hnil, hover, hdrain⟩ := run_drain m.edges.toList
    { m with
      engine := (m.engine.resync m.pins nowUs).task nowUs m.pins
      edges := m.edges.takeOverflow.2
      phase := .drain } rfl ⟨hwf.head_lt, hwf.tail_lt⟩ rfl
  generalize (m.engine.resync m.pins nowUs).task nowUs m.pins = e at *
  have hff := frame_feed e m.edges.toList
  have hraw : ((feed e m.edges.toList).debounce n).raw = !hasBit m.pins n := by
    rw [raw_feed _ _ hg ht1, Lib.replay_eq_lastOf]
    exact congrArg (Option.getD · _) hnew
  have hs3 : (feed e m.edges.toList).settleActive = false := hff.settleActive.trans hs2
  obtain ⟨hraw4, htrack4, _⟩ := raw_task hs3 nowUs m.pins n
  -- and the rest of the iteration
  rw [Lib.run_append, Lib.run_append, hfirst, hdrain]
  have hpop : edges.pop = none := (EdgeBuffer.pop_eq_none hwf').mpr hnil
  have hov : edges.overflow = false := hover
  simp only [Lib.run_cons, Lib.run_nil, step, hpop, EdgeBuffer.takeOverflow_fst, hov, Bool.false_eq_true,
    if_false, finish]
  intro hsync
  have h := hsync rfl hnil rfl n (htrack4.trans ((hff.isTracking n).trans ht1))
  rw [hraw4, hraw] at h
  cases hb : hasBit m.pins n <;> rw [hb] at h <;> exact absurd h (by decide)

/-- 255 changes of an input pin fill an empty buffer, the next one is dropped. -/
theorem run_changes {m : Main} (h : Inv m) (hnil : m.edges.toList = []) (ho : m.edges.overflow = false)
    {n : Gpio} (hin : modeIsInput (m.engine.config.mode n) = true) (timeUs : U64) : ∀ k, k ≤ 255 →
    ∃ m', Lib.run step m (List.replicate k (.change n timeUs)) = m' ∧ Inv m' ∧
      m'.engine = m.engine ∧ m'.phase = m.phase ∧ m'.edges.overflow = false ∧
      m'.edges.toList.length = k ∧ (∀ edge ∈ m'.edges.toList, edge.gpio = n.toU8) ∧
      hasBit m'.pins n = (hasBit m.pins n ^^ decide (k % 2 = 1))
  | 0, _ => ⟨m, rfl, h, rfl, rfl, ho, by simp [hnil], by simp [hnil], by simp⟩
  | k + 1, hk => by
      obtain ⟨m', hrun, hinv, he, hp, ho', hlen, hgpio, hbit⟩ := run_changes h hnil ho hin timeUs k
        (by omega)
      have hedges := edges_change (he ▸ hin : modeIsInput (m'.engine.config.mode n) = true) timeUs
      have hover : (m'.change n timeUs).edges.overflow = false := by
        rw [hedges, EdgeBuffer.overflow_push, ho', Bool.false_or, decide_eq_false_iff_not,
          EdgeBuffer.full_iff hinv.edges, hlen]
        simp only [edgeBufferSize]
        omega
      have hlist : (m'.change n timeUs).edges.toList =
          m'.edges.toList ++ [⟨n.toU8, hasBit (flip m'.pins n) n, timeUs⟩] := by
        rw [hedges] at hover ⊢
        exact EdgeBuffer.toList_push hinv.edges _ hover
      refine ⟨m'.change n timeUs, ?_, hinv.change n timeUs, he, hp, hover, ?_, ?_, ?_⟩
      · rw [List.replicate_succ', Lib.run_append, hrun]; rfl
      · rw [hlist, List.length_append, hlen]; rfl
      · rw [hlist]
        intro edge hedge
        rcases List.mem_append.mp hedge with hold | hnew
        · exact hgpio edge hold
        · rw [List.mem_singleton.mp hnew]
      · have hparity : decide ((k + 1) % 2 = 1) = !decide (k % 2 = 1) := by
          rw [← decide_not, decide_eq_decide]; omega
        simp only [Main.change, flip, hasBit_withBit, if_true, hbit, hparity]
        cases hasBit m.pins n <;> cases decide (k % 2 = 1) <;> rfl

/-- The steps up to the overflow test of the second iteration. -/
def untilOverflow : List MainStep :=
  [.tudTask, .popEdge, .readClock 1000, .takeOverflow, .task, .report false none,
    .tudTask, .popEdge, .readClock 2000]

/-- 256 changes of a pin between the last pop and the overflow test leave it at its old value, and the
    engine at the value of the last edge that found room. -/
theorem not_synchronised : ¬ ∀ (info : DeviceInfo) (startUs : U64) (pins : U32) (is : List MainStep),
    (Lib.run step (boot info startUs pins) is).Synchronised := by
  intro h
  obtain ⟨m, hm⟩ : ∃ m, m = Lib.run step (boot (Device.sampleInfo 1) 0 1) untilOverflow := ⟨_, rfl⟩
  have hstart : m.phase = .overflow 2000 ∧ m.edges.toList = [] ∧ m.edges.overflow = false ∧
      modeIsInput (m.engine.config.mode 0) = true ∧ m.engine.settleActive = false ∧
      m.engine.isTracking 0 = true ∧ hasBit m.pins 0 = true := by
    rw [hm]; decide +kernel
  have hinv : Inv m := hm ▸ Lib.run_invariant (A := fun m i => staleOverflow m i = false) inv_step
    untilOverflow (inv_boot (Device.sampleInfo 1) 0 1) (by decide +kernel)
  obtain ⟨hp, hnil, ho, hin, hs, ht, hbit⟩ := hstart
  obtain ⟨m', hrun, hinv', he, hp', ho', hlen, hgpio, hbit'⟩ := run_changes hinv hnil ho hin 1500 255 le_rfl
  have hlow : hasBit m'.pins 0 = false := by rw [hbit', hbit]; decide
  have hin' : modeIsInput (m'.engine.config.mode 0) = true := he ▸ hin
  -- the last change is dropped
  have hfull : (m'.change 0 1500).edges = { m'.edges with overflow := true } := by
    rw [edges_change hin', EdgeBuffer.push, if_pos ((EdgeBuffer.full_iff hinv'.edges).mpr hlen)]
  have hhigh : hasBit (m'.change 0 1500).pins 0 = true := by simp [Main.change, flip, hlow]
  have hnew : (m'.change 0 1500).newest 0 = some (!hasBit (m'.change 0 1500).pins 0) := by
    have hview := hinv'.view ho' 0 hin'
    rw [hlow, Lib.replay_eq_lastOf] at hview
    obtain ⟨edge, hedge⟩ := List.exists_mem_of_length_pos (by omega : 0 < m'.edges.toList.length)
    have hsome := Lib.lastOf_isSome RawEdge.gpio RawEdge.level hedge (hgpio edge hedge)
    obtain ⟨v, hv⟩ := Option.isSome_iff_exists.mp hsome
    rw [hv] at hview
    rw [hhigh, newest, hfull]
    exact hv.trans (congrArg some hview)
  refine lost_of_stale (m := m'.change 0 1500) (hp'.trans hp) ?_ ?_ ?_ (he ▸ hs) (he ▸ ht) hnew ?_
  · rw [hfull]; exact ⟨hinv'.edges.head_lt, hinv'.edges.tail_lt⟩
  · rw [hfull]; exact fun edge hedge => ⟨0, hgpio edge hedge⟩
  · rw [hfull]
  · have hall := h (Device.sampleInfo 1) 0 1 (untilOverflow ++ (List.replicate 255 (.change 0 1500) ++
      .change 0 1500 :: ([.takeOverflow, .resync, .task, .report false none, .tudTask] ++
        List.replicate (m'.change 0 1500).edges.toList.length .popEdge ++
        [.popEdge, .readClock 2000, .takeOverflow, .task, .report false none])))
    rw [Lib.run_append, ← hm, Lib.run_append, hrun, Lib.run_cons] at hall
    exact hall

end Main

end Hidpin.Firmware
