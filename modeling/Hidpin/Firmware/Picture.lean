import Hidpin.Firmware.Turns

/-! How old the picture can be that the reports give. After the last electrical change the loop drains the
    edge buffer, or reads the pins when it had run over, and from then on the turns bring the reports up to
    date. -/

namespace Hidpin.Firmware
namespace Main

theorem run_main (is : List MainStep) (m : Main) :
    Lib.run loopStep m (is.map .main) = Lib.run step m is := by
  rw [Lib.run, List.foldl_map]
  rfl

/-- The times a step brings in are not after `t`. -/
def By (t : U64) : LoopStep → Prop
  | .main (.change _ timeUs) => timeUs.toNat ≤ t.toNat
  | .main (.readClock nowUs) => nowUs.toNat ≤ t.toNat
  | .setPinConfig _ nowUs => nowUs.toNat ≤ t.toNat
  | _ => True

theorem By.mono {t t' : U64} {i : LoopStep} (h : By t i) (ht : t.toNat ≤ t'.toNat) : By t' i := by
  cases i with
  | setPinConfig payload nowUs => exact Nat.le_trans h ht
  | main i =>
    cases i with
    | change n timeUs => exact Nat.le_trans h ht
    | readClock nowUs => exact Nat.le_trans h ht
    | _ => trivial

instance (t : U64) (i : LoopStep) : Decidable (By t i) := by
  cases i with
  | setPinConfig payload nowUs => exact inferInstanceAs (Decidable (_ ≤ _))
  | main i =>
    cases i <;> first | exact inferInstanceAs (Decidable (_ ≤ _)) | exact inferInstanceAs (Decidable True)

/-- The times the loop holds are not after `t`. -/
structure HeldBy (t : U64) (m : Main) : Prop where
  wf : m.edges.WF
  edges : ∀ edge ∈ m.edges.toList, edge.timeUs.toNat ≤ t.toNat
  now : ∀ nowUs ∈ m.now, nowUs.toNat ≤ t.toNat

theorem heldBy_step {t : U64} {m : Main} (h : HeldBy t m) {i : LoopStep} (hi : By t i) :
    HeldBy t (m.loopStep i) ∧ ∀ op ∈ m.loopCalls i, op.By t := by
  cases i with
  | setPinConfig payload nowUs =>
    cases hp : m.phase with
    | start =>
      simp only [loopStep, loopCalls, hp]
      exact ⟨⟨h.wf, h.edges, fun t ht => absurd ht (by simp [now])⟩, by simpa [Op.By, Op.nowUs, By] using hi⟩
    | _ => simp only [loopStep, loopCalls, hp]; exact ⟨h, by simp⟩
  | main i =>
    cases i with
    | change n timeUs =>
      refine ⟨?_, by simp [loopCalls, calls]⟩
      by_cases hin : modeIsInput (m.engine.config.mode n) = true
      · have hedges : (m.loopStep (.main (.change n timeUs))).edges = _ := edges_change hin timeUs
        refine ⟨by rw [hedges]; exact EdgeBuffer.wf_push h.wf _, fun edge hedge => ?_, h.now⟩
        rw [hedges] at hedge
        rcases EdgeBuffer.mem_push h.wf hedge with hold | rfl
        · exact h.edges edge hold
        · exact hi
      · have hedges : (m.loopStep (.main (.change n timeUs))).edges = m.edges := by
          simp [loopStep, step, Main.change, hin]
        exact ⟨by rw [hedges]; exact h.wf, by rw [hedges]; exact h.edges, h.now⟩
    | popEdge =>
      cases hp : m.phase with
      | drain =>
        simp only [loopStep, step, loopCalls, calls, hp]
        cases hpop : m.edges.pop with
        | none => exact ⟨⟨h.wf, h.edges, fun t ht => absurd ht (by simp [now])⟩, by simp⟩
        | some r =>
          obtain ⟨hwf, -, hlist⟩ := EdgeBuffer.pop_eq_some h.wf hpop
          have hedges := h.edges
          rw [hlist] at hedges
          refine ⟨⟨hwf, fun edge hedge => hedges edge (List.mem_cons_of_mem _ hedge),
            fun t ht => absurd ht (by simp [now])⟩, ?_⟩
          simpa [Op.By, Op.nowUs] using hedges r.1 List.mem_cons_self
      | _ => simp only [loopStep, step, loopCalls, calls, hp]; exact ⟨h, by simp⟩
    | readClock nowUs =>
      cases hp : m.phase with
      | clock =>
        simp only [loopStep, step, loopCalls, calls, hp]
        exact ⟨⟨h.wf, h.edges, fun t ht => by obtain rfl := Option.some.inj ht; exact hi⟩, by simp⟩
      | _ => simp only [loopStep, step, loopCalls, calls, hp]; exact ⟨h, by simp⟩
    | takeOverflow =>
      cases hp : m.phase with
      | overflow nowUs =>
        have hnow : nowUs.toNat ≤ t.toNat := h.now nowUs (by simp [now, hp])
        simp only [loopStep, step, loopCalls, calls, hp]
        refine ⟨⟨⟨h.wf.head_lt, h.wf.tail_lt⟩, h.edges, fun t ht => ?_⟩, by simp⟩
        cases ho : m.edges.overflow <;> simp_all [now]
      | _ => simp only [loopStep, step, loopCalls, calls, hp]; exact ⟨h, by simp⟩
    | resync =>
      cases hp : m.phase with
      | resync nowUs =>
        have hnow : nowUs.toNat ≤ t.toNat := h.now nowUs (by simp [now, hp])
        simp only [loopStep, step, loopCalls, calls, hp]
        exact ⟨⟨h.wf, h.edges, by simpa [now] using hnow⟩, by simpa [Op.By, Op.nowUs] using hnow⟩
      | _ => simp only [loopStep, step, loopCalls, calls, hp]; exact ⟨h, by simp⟩
    | task =>
      cases hp : m.phase with
      | task nowUs =>
        have hnow : nowUs.toNat ≤ t.toNat := h.now nowUs (by simp [now, hp])
        simp only [loopStep, step, loopCalls, calls, hp]
        exact ⟨⟨h.wf, h.edges, by simpa [now] using hnow⟩, by simpa [Op.By, Op.nowUs] using hnow⟩
      | _ => simp only [loopStep, step, loopCalls, calls, hp]; exact ⟨h, by simp⟩
    | report unmounted send =>
      cases hp : m.phase with
      | report nowUs =>
        have hnow : nowUs.toNat ≤ t.toNat := h.now nowUs (by simp [now, hp])
        simp only [loopStep, step, loopCalls, calls, hp]
        refine ⟨⟨h.wf, h.edges, by simp [now, finish]⟩, ?_⟩
        cases unmounted <;> cases send <;> simp [Op.By, Op.nowUs, hnow]
      | _ => simp only [loopStep, step, loopCalls, calls, hp]; exact ⟨h, by simp⟩
    | _ =>
      cases hp : m.phase with
      | start =>
        simp only [loopStep, step, loopCalls, calls, hp]
        exact ⟨⟨h.wf, h.edges, by simp [now]⟩, by simp [Op.By, Op.nowUs]⟩
      | _ => simp only [loopStep, step, loopCalls, calls, hp]; exact ⟨h, by simp⟩

/-- The calls of a run are not made after `t`. -/
theorem calls_by {t : U64} : ∀ (is : List LoopStep) {m : Main} (d : Device), HeldBy t m →
    (∀ i ∈ is, By t i) →
    HeldBy t (Lib.run loopStep m is) ∧
      ∀ op ∈ Lib.scripts loopStep Device.step (fun m _ i => m.loopCalls i) m d is, op.By t
  | [], _, _, h, _ => ⟨h, fun _ hop => absurd hop List.not_mem_nil⟩
  | i :: is, m, d, h, hby => by
    obtain ⟨hheld, hcalls⟩ := heldBy_step h (hby i List.mem_cons_self)
    obtain ⟨hheld', hcalls'⟩ := calls_by is (Lib.run Device.step d (m.loopCalls i)) hheld fun j hj =>
      hby j (List.mem_cons_of_mem i hj)
    refine ⟨hheld', fun op hop => ?_⟩
    rw [Lib.scripts_cons] at hop
    rcases List.mem_append.mp hop with hop | hop
    · exact hcalls op hop
    · exact hcalls' op hop

/-! ### The steps of a turn -/

@[simp] theorem device_nil (m : Main) (d : Device) : m.device d [] = d := rfl

theorem device_cons (m : Main) (d : Device) (i : LoopStep) (is : List LoopStep) :
    m.device d (i :: is) = (m.loopStep i).device (Lib.run Device.step d (m.loopCalls i)) is := by
  rw [device, Lib.run_scripts_cons, device]

theorem device_append (m : Main) (d : Device) (is js : List LoopStep) :
    m.device d (is ++ js) = (Lib.run loopStep m is).device (m.device d is) js := by
  rw [device, Lib.scripts_append, Lib.run_append, device, device]

/-- The requests. -/
theorem run_requests : ∀ (requests : List Request) {m : Main} (d : Device), m.phase = .start →
    (Lib.run loopStep m (requests.map Request.step)).phase = .start ∧
      (Lib.run loopStep m (requests.map Request.step)).edges = m.edges ∧
      (Lib.run loopStep m (requests.map Request.step)).pins = m.pins ∧
      m.device d (requests.map Request.step) = Lib.run Device.step d (requests.map Request.call)
  | [], _, _, hp => ⟨hp, rfl, rfl, rfl⟩
  | request :: requests, m, d, hp => by
    have hstep : (m.loopStep request.step).phase = .start ∧ (m.loopStep request.step).edges = m.edges ∧
        (m.loopStep request.step).pins = m.pins ∧ m.loopCalls request.step = [request.call] := by
      cases request <;> simp [Request.step, Request.call, loopStep, step, loopCalls, calls, hp]
    obtain ⟨hp', hedges, hpins, hcalls⟩ := hstep
    obtain ⟨h1, h2, h3, h4⟩ := run_requests requests (d.step request.call) hp'
    rw [List.map_cons, List.map_cons, device_cons, hcalls]
    exact ⟨h1, h2.trans hedges, h3.trans hpins, h4⟩

/-- The loop over the edges goes on to the clock. -/
theorem run_popEdges {m : Main} (hp : m.phase = .drain) (hwf : m.edges.WF) :
    ∃ edges : EdgeBuffer, edges.WF ∧ edges.toList = [] ∧ edges.overflow = m.edges.overflow ∧
      Lib.run loopStep m (List.replicate edgeBufferSize (.main .popEdge)) =
        { m with engine := feed m.engine m.edges.toList, edges := edges, phase := .clock } := by
  obtain ⟨edges, hwf', hnil, ho, hrun⟩ := run_drain _ m hp hwf rfl
  have hlen : m.edges.toList.length < edgeBufferSize := by
    rw [EdgeBuffer.toList, Lib.length_window]
    exact Nat.mod_lt _ (by decide)
  have hidle : ∀ (k : ℕ) (m : Main), m.phase = .clock → Lib.run step m (List.replicate k .popEdge) = m := by
    intro k m hp
    induction k with
    | zero => rfl
    | succ k ih =>
      have hstep : m.step .popEdge = m := by simp [step, hp]
      rw [List.replicate_succ, Lib.run_cons, hstep, ih]
  obtain ⟨k, hk⟩ : ∃ k, edgeBufferSize = m.edges.toList.length + (k + 1) :=
    ⟨edgeBufferSize - m.edges.toList.length - 1, by omega⟩
  refine ⟨edges, hwf', hnil, ho, ?_⟩
  rw [← List.map_replicate, run_main, hk, List.replicate_add, Lib.run_append, hrun,
    List.replicate_succ, Lib.run_cons]
  have hpop : edges.pop = none := (EdgeBuffer.pop_eq_none hwf').mpr hnil
  simp only [step, hp, hpop]
  exact hidle k _ rfl

/-- No edge, no call. -/
theorem device_popEdges {m : Main} (d : Device) (hwf : m.edges.WF) (hnil : m.edges.toList = []) : ∀ k : ℕ,
    m.device d (List.replicate k (.main .popEdge)) = d := by
  have hpop : m.edges.pop = none := (EdgeBuffer.pop_eq_none hwf).mpr hnil
  intro k
  induction k generalizing m with
  | zero => rfl
  | succ k ih =>
    rw [List.replicate_succ, device_cons]
    have hcalls : m.loopCalls (.main .popEdge) = [] := by
      simp only [loopCalls, calls, hpop]
      cases m.phase <;> rfl
    have hedges : (m.loopStep (.main .popEdge)).edges = m.edges := by
      simp only [loopStep, step, hpop]
      cases m.phase <;> rfl
    rw [hcalls, Lib.run_nil]
    exact ih (by rw [hedges]; exact hwf) (by rw [hedges]; exact hnil) (by rw [hedges]; exact hpop)

theorem run_closing {m : Main} (hp : m.phase = .clock) (nowUs : U64) (unmounted : Bool) :
    (Lib.run loopStep m (closing nowUs unmounted)).phase = .start ∧
      (Lib.run loopStep m (closing nowUs unmounted)).edges = m.edges.takeOverflow.2 ∧
      (Lib.run loopStep m (closing nowUs unmounted)).pins = m.pins := by
  cases ho : m.edges.overflow <;> simp [closing, loopStep, step, finish, hp, ho]

theorem device_closing {m : Main} (d : Device) (hp : m.phase = .clock) (ho : m.edges.overflow = false)
    (nowUs : U64) (unmounted : Bool) :
    m.device d (closing nowUs unmounted) =
      Lib.run Device.step d
        (.task nowUs m.pins :: ((if unmounted then [.usbReset] else []) ++ [.send nowUs true])) := by
  simp only [closing, device_cons, device_nil]
  simp [loopCalls, calls, loopStep, step, hp, ho]

/-- Between two iterations, with no edge left to see. -/
structure Caught (m : Main) : Prop where
  phase : m.phase = .start
  wf : m.edges.WF
  nil : m.edges.toList = []
  overflow : m.edges.overflow = false

/-- Where the loop is in a turn. -/
theorem run_turn {m : Main} (hp : m.phase = .start) (hwf : m.edges.WF) (t : Turn) :
    ∃ m₁ m₂ : Main, m₁ = Lib.run loopStep m (t.requests.map Request.step) ∧ m₁.phase = .start ∧
      m₁.edges = m.edges ∧ m₁.pins = m.pins ∧
      m₂ = Lib.run loopStep (m₁.loopStep (.main .tudTask)) (List.replicate edgeBufferSize (.main .popEdge)) ∧
      m₂.phase = .clock ∧ m₂.edges.WF ∧ m₂.edges.toList = [] ∧ m₂.edges.overflow = m.edges.overflow ∧
      m₂.pins = m.pins ∧ Lib.run loopStep m t.steps = Lib.run loopStep m₂ (closing t.nowUs t.unmounted) := by
  obtain ⟨hp₁, hedges₁, hpins₁, -⟩ := run_requests t.requests (Device.start (Device.sampleInfo 0) 0) hp
  have htud : (Lib.run loopStep m (t.requests.map Request.step)).loopStep (.main .tudTask) =
      { Lib.run loopStep m (t.requests.map Request.step) with phase := .drain } := by
    simp [loopStep, step, hp₁]
  obtain ⟨edges, hwf₂, hnil, ho, hrun⟩ := run_popEdges
    (m := { Lib.run loopStep m (t.requests.map Request.step) with phase := .drain })
      rfl (by rw [hedges₁]; exact hwf)
  refine ⟨_, _, rfl, hp₁, hedges₁, hpins₁, rfl, ?_⟩
  rw [Turn.steps, Lib.run_append, Lib.run_cons, Lib.run_append, htud, hrun]
  exact ⟨rfl, hwf₂, hnil, by rw [ho, hedges₁], hpins₁, rfl⟩

theorem caught_turn {m : Main} (hp : m.phase = .start) (hwf : m.edges.WF) (t : Turn) :
    Caught (Lib.run loopStep m t.steps) ∧ (Lib.run loopStep m t.steps).pins = m.pins := by
  obtain ⟨m₁, m₂, -, -, -, -, -, hp₂, hwf₂, hnil, -, hpins, hrun⟩ := run_turn hp hwf t
  obtain ⟨hphase, hedges, hpins'⟩ := run_closing hp₂ t.nowUs t.unmounted
  rw [hrun]
  refine ⟨⟨hphase, ?_, ?_, ?_⟩, hpins'.trans hpins⟩
  · rw [hedges]
    exact ⟨hwf₂.head_lt, hwf₂.tail_lt⟩
  · rw [hedges, EdgeBuffer.toList_takeOverflow, hnil]
  · rw [hedges]
    rfl

/-- A turn that finds no edge makes its own calls. -/
theorem device_turn {m : Main} (h : Caught m) (d : Device) (t : Turn) :
    m.device d t.steps = d.turn m.pins t := by
  obtain ⟨m₁, m₂, hm₁, hp₁, hedges₁, hpins₁, hm₂, hp₂, hwf₂, hnil₂, ho₂, hpins₂, -⟩ :=
    run_turn h.phase h.wf t
  obtain ⟨-, -, -, hcalls⟩ := run_requests t.requests d h.phase
  have htud : m₁.loopCalls (.main .tudTask) = [] := rfl
  have hedges : (m₁.loopStep (.main .tudTask)).edges = m.edges := by
    rw [← hedges₁]
    simp [loopStep, step, hp₁]
  have hclosing := device_closing (Lib.run Device.step d (t.requests.map Request.call))
    hp₂ (ho₂.trans h.overflow) t.nowUs
    t.unmounted
  rw [Turn.steps, device_append, hcalls, ← hm₁, device_cons, htud, Lib.run_nil, device_append,
    device_popEdges _ (by rw [hedges]; exact h.wf) (by rw [hedges]; exact h.nil), ← hm₂, hclosing,
    hpins₂, Device.turn, Turn.calls, Lib.run_append]

theorem device_turns : ∀ (turns : List Turn) {m : Main}, Caught m → ∀ d : Device,
    m.device d (turns.flatMap Turn.steps) = Lib.run (Device.turn m.pins) d turns ∧
      (Lib.run loopStep m (turns.flatMap Turn.steps)).pins = m.pins
  | [], _, _, _ => ⟨rfl, rfl⟩
  | t :: turns, m, h, d => by
    obtain ⟨hcaught, hpins⟩ := caught_turn h.phase h.wf t
    obtain ⟨hdevice, hpins'⟩ := device_turns turns hcaught (m.device d t.steps)
    rw [List.flatMap_cons, device_append, Lib.run_append, Lib.run_cons, hdevice, hpins, device_turn h]
    exact ⟨rfl, hpins'.trans hpins⟩

/-- A turn never takes the flag over stale edges. -/
theorem loopInv_turn {m : Main} (h : LoopInv m) (hp : m.phase = .start) (t : Turn) :
    LoopInv (Lib.run loopStep m t.steps) := by
  have hfresh : ∀ (is : List LoopStep) (m : Main), LoopInv m → (∀ i ∈ is, i ≠ .main .takeOverflow) →
      LoopInv (Lib.run loopStep m is) := fun is m h his =>
    Lib.run_of_forall (fun m i h hi => loopInv_step m i h (by
      cases i with
      | setPinConfig => rfl
      | main i => cases i <;> first | rfl | exact absurd rfl hi)) is h his
  obtain ⟨m₁, m₂, hm₁, -, -, -, hm₂, hp₂, -, hnil₂, -, -, hrun⟩ := run_turn hp h.edges t
  have h₁ : LoopInv m₁ := by
    rw [hm₁]
    refine hfresh _ m h fun i hi => ?_
    obtain ⟨request, -, rfl⟩ := List.mem_map.mp hi
    cases request <;> simp [Request.step]
  have h₂ : LoopInv m₂ := by
    rw [hm₂]
    exact hfresh _ _ (loopInv_step m₁ _ h₁ rfl) (by simp)
  have hread : LoopInv (m₂.loopStep (.main (.readClock t.nowUs))) := loopInv_step m₂ _ h₂ rfl
  have hstale : (m₂.loopStep (.main (.readClock t.nowUs))).staleLoop (.main .takeOverflow) = false := by
    simp [staleLoop, staleOverflow, loopStep, step, hp₂, newest, hnil₂, Lib.lastOf]
  rw [hrun, closing, Lib.run_cons, Lib.run_cons]
  exact hfresh _ _ (loopInv_step _ _ hread hstale) (by simp)

/-! ### After the last change -/

theorem heldBy_boot (info : DeviceInfo) (startUs : U64) (pins : U32) (t : U64) :
    HeldBy t (boot info startUs pins) :=
  ⟨EdgeBuffer.wf_init, fun _ hedge => absurd hedge (by simp [boot]), fun _ hnow =>
    absurd hnow (by simp [now, boot])⟩

theorem by_turn (t : Turn) : ∀ i ∈ t.steps, By t.nowUs i := by
  intro i hi
  simp only [Turn.steps, closing, List.mem_append, List.mem_map, List.mem_cons, List.mem_replicate,
    List.not_mem_nil, or_false] at hi
  rcases hi with ⟨request, -, rfl⟩ | rfl | ⟨-, rfl⟩ | rfl | rfl | rfl | rfl | rfl
  · cases request <;> trivial
  · trivial
  · trivial
  · exact le_refl _
  all_goals trivial

theorem lastSentUs_by {info : DeviceInfo} {startUs t : U64} (hstart : startUs.toNat ≤ t.toNat)
    {ops : List Op} (hops : ∀ op ∈ ops, op.By t) :
    (Lib.run Device.step (.start info startUs) ops).engine.lastSentUs.toNat ≤ t.toNat := by
  have htime : ∀ op : Op, Device.Op.time op = op.nowUs := fun op => by cases op <;> rfl
  rw [Device.lastSentUs_run]
  rcases List.mem_cons.mp (Device.lastHandOver_mem info startUs ops) with h | h
  · rw [h]
    exact hstart
  · obtain ⟨op, hop, hnow⟩ := List.mem_filterMap.mp h
    exact hops op hop _ ((htime op).symm.trans hnow)

/-- After a whole turn without a change the engine has the values of the pins. -/
theorem resynced_device {info : DeviceInfo} {startUs : U64} {pins : U32} {is : List LoopStep} {t : U64}
    (hstart : startUs.toNat ≤ t.toNat) (hby : ∀ i ∈ is, By t i)
    (hinv : LoopInv (Lib.run loopStep (boot info startUs pins) is))
    (hcaught : Caught (Lib.run loopStep (boot info startUs pins) is)) :
    Device.Resynced (Lib.run loopStep (boot info startUs pins) is).pins t
        ((boot info startUs pins).device (.start info startUs) is) ∧
      ((boot info startUs pins).device (.start info startUs) is).engine.lastSentUs.toNat ≤ t.toNat := by
  have hengine : (Device.start info startUs).engine = (boot info startUs pins).engine := rfl
  have hcalls := (calls_by is (.start info startUs) (heldBy_boot info startUs pins t) hby).2
  have hsettles : Engine.SettlesBy t (Device.start info startUs).engine := by
    rw [Device.start, Engine.init_eq]
    exact Engine.settlesBy_add hstart
  refine ⟨⟨Device.inv_run _ _ _, Device.timed_run _ _ _, ?_, fun n ht => ?_, ?_⟩,
    lastSentUs_by hstart hcalls⟩
  · exact Lib.run_of_forall (P := fun d : Device => Engine.SettlesBy t d.engine) Device.settlesBy_step
      _ hsettles hcalls
  · rw [engine_device hengine] at ht ⊢
    have hview := hinv.view hcaught.overflow n ((Engine.isTracking_iff _ n).mp ht).2.2 (Or.inl ht)
    rw [hcaught.nil, Lib.replay_nil, seen, hcaught.phase] at hview
    simpa [ht] using hview
  · exact (Device.heldBy_run info startUs hcalls).pins

/-- The latest report shows the pins as they are. -/
theorem latest_shows (info : DeviceInfo) (startUs : U64) (pins : U32) (before : List LoopStep)
    (turns : List Turn) (t : U64) (δ : ℕ) (hstart : startUs.toNat ≤ t.toNat) (hbefore : ∀ i ∈ before, By t i)
    (hstale : ∀ x ∈ Lib.steps loopStep (boot info startUs pins) before, x.1.staleLoop x.2 = false)
    (hphase : (Lib.run loopStep (boot info startUs pins) before).phase = .start)
    (hpace : Lib.Paced δ (t.toNat :: turns.map fun turn => turn.nowUs.toNat))
    (hlong : t.toNat + 1255 * 1000 + 6 * δ ≤ (turns.map fun turn => turn.nowUs.toNat).getLastD t.toNat) :
    let is := before ++ turns.flatMap Turn.steps
    let m := Lib.run loopStep (boot info startUs pins) is
    ∃ r, ((boot info startUs pins).device (.start info startUs) is).sent.getLast? = some r ∧
      Engine.Shows m.pins m.engine r.status := by
  intro is m
  have hengine : (Device.start info startUs).engine = (boot info startUs pins).engine := rfl
  cases turns with
  | nil =>
    rw [List.map_nil, List.getLastD_nil] at hlong
    omega
  | cons first rest =>
    rw [List.map_cons, Lib.Paced.cons_iff] at hpace
    rw [List.map_cons, List.getLastD_cons] at hlong
    have hby : ∀ i ∈ before ++ first.steps, By first.nowUs i := fun i hi => by
      rcases List.mem_append.mp hi with hi | hi
      · exact (hbefore i hi).mono hpace.1.1
      · exact by_turn first i hi
    have hinv := loopInv_turn (loopInv_run info startUs pins before hstale) hphase first
    obtain ⟨hcaught, -⟩ := caught_turn hphase (loopInv_run info startUs pins before hstale).edges first
    rw [← Lib.run_append] at hinv hcaught
    obtain ⟨hresynced, hlast⟩ := resynced_device (hstart.trans hpace.1.1) hby hinv hcaught
    have hsplit : is = (before ++ first.steps) ++ rest.flatMap Turn.steps := by simp [is]
    obtain ⟨hdevice, hpins⟩ :=
      device_turns rest hcaught ((boot info startUs pins).device (.start info startUs)
      (before ++ first.steps))
    obtain ⟨r, hr, hshows⟩ := Device.shown_of_resynced hresynced hlast hpace.2 (by
      rw [Device.largestDebounceUs, intervalUs]
      omega)
    rw [← hdevice, ← device_append, ← hsplit] at hr hshows
    rw [← Lib.run_append, ← hsplit] at hpins
    rw [engine_device hengine] at hshows
    rw [hpins]
    exact ⟨r, hr, hshows⟩

/-- The reports are up to date. Take a state between two iterations of a run that never took the overflow
    flag over stale edges. When no pin has changed and no Set has arrived since `t` and the loop has turned
    at least every `δ` µs, the endpoint taking its reports, then at the latest 1.255 s and six turns after
    `t` the latest report leaves nothing queued, covers the pins of the configuration in force, and says of
    every input what its electrical value is and of every output at which level it is driven. -/
theorem picture_current (info : DeviceInfo) (startUs : U64) (pins : U32) (before : List LoopStep)
    (turns : List Turn) (t : U64) (δ : ℕ) (hstart : startUs.toNat ≤ t.toNat) (hbefore : ∀ i ∈ before, By t i)
    (hstale : ∀ x ∈ Lib.steps loopStep (boot info startUs pins) before, x.1.staleLoop x.2 = false)
    (hphase : (Lib.run loopStep (boot info startUs pins) before).phase = .start)
    (hpace : Lib.Paced δ (t.toNat :: turns.map fun turn => turn.nowUs.toNat))
    (hlong : t.toNat + 1255 * 1000 + 6 * δ ≤ (turns.map fun turn => turn.nowUs.toNat).getLastD t.toNat) :
    let is := before ++ turns.flatMap Turn.steps
    let m := Lib.run loopStep (boot info startUs pins) is
    ∃ r, ((boot info startUs pins).device (.start info startUs) is).sent.getLast? = some r ∧
      hasFlag r.status.flags flagMoreEvents = false ∧ r.status.monitored = inputMask m.engine.config ∧
      r.status.outputs = outputMask m.engine.config ∧
      (∀ n, modeIsInput (m.engine.config.mode n) = true → hasBit r.status.levels n = hasBit m.pins n) ∧
      ∀ n, m.engine.config.mode n = modeOutput →
        hasBit r.status.levels n = hasBit m.engine.outputLevels n := by
  obtain ⟨r, hr, hshows⟩ :=
    latest_shows info startUs pins before turns t δ hstart hbefore hstale hphase hpace hlong
  exact ⟨r, hr, hshows.complete, hshows.monitored, hshows.outputs, hshows.input, hshows.output⟩

/-- Pin 0 becomes an input without a pull and pin 1 an output at HIGH; the pin `n` changes twice. -/
def rewired (n : Gpio) : List LoopStep :=
  iteration 1000 (some true) ++
    [.setPinConfig (encodePinConfig ⟨0, 0xFF, 7,
      ⟨fun n => if n.val = 0 then modeInputNopull else if n.val = 1 then modeOutput else 0,
        fun n => if n.val = 1 then 1 else 0⟩⟩) 1200, .main (.change n 1300)] ++
    iteration 2500 (some true) ++ [.main (.change n 2600)] ++ iteration 2700 (some true)

/-- Eight turns a second apart, in the third of which the host sets pin 1 to LOW. -/
def eightTurns : List Turn :=
  [⟨[], 1003000, false⟩, ⟨[], 2003000, false⟩, ⟨[.output [2, 0, 0, 0, 0, 0, 0, 0]], 3003000, false⟩,
    ⟨[], 4003000, false⟩, ⟨[], 5003000, false⟩, ⟨[], 6003000, false⟩, ⟨[], 7003000, false⟩,
    ⟨[], 8003000, false⟩]

theorem caught_rewired : Caught (Lib.run loopStep (boot (Device.sampleInfo 3) 0 1) (rewired 0)) :=
  ⟨by decide +kernel, (loopInv_run _ _ _ _ (by decide +kernel)).edges, by decide +kernel, by decide +kernel⟩

theorem picture_current_run :
    ∃ r, ((boot (Device.sampleInfo 3) 0 1).device (.start (Device.sampleInfo 3) 0)
        ((rewired 0) ++ eightTurns.flatMap Turn.steps)).sent.getLast? = some r ∧
      r.status.monitored = 1 ∧ r.status.outputs = 2 ∧ hasBit r.status.levels 0 = true := by
  obtain ⟨r, hr, -, hmonitored, houtputs, hinput, -⟩ :=
    picture_current (Device.sampleInfo 3) 0 1 (rewired 0) eightTurns 3000 1000000 (by decide)
      (by decide +kernel) (by decide +kernel) caught_rewired.phase (by decide +kernel) (by decide +kernel)
  obtain ⟨hdevice, hpins⟩ := device_turns eightTurns caught_rewired
    ((boot (Device.sampleInfo 3) 0 1).device (.start (Device.sampleInfo 3) 0) (rewired 0))
  have hengine : (Device.start (Device.sampleInfo 3) 0).engine = (boot (Device.sampleInfo 3) 0 1).engine :=
    rfl
  rw [← engine_device hengine, device_append, hdevice, Device.config_turns] at hmonitored houtputs hinput
  rw [Lib.run_append, hpins] at hinput
  refine ⟨r, hr, ?_, ?_, ?_⟩
  · rw [hmonitored]
    decide +kernel
  · rw [houtputs]
    decide +kernel
  · rw [hinput 0 (by decide +kernel)]
    decide +kernel

end Main

end Hidpin.Firmware
