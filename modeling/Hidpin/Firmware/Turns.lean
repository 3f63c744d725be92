import Hidpin.Firmware.Heartbeat
import Hidpin.Firmware.Recovery

/-! Iterations in which no pin changes. The debounce times pass, the event queue empties a report at a time,
    and the next periodic report comes; the latest report then shows every input and output as it is. -/

namespace Hidpin.Firmware

/-- A request of the host that leaves the configuration alone. -/
inductive Request where
  | output (payload : List U8)
  | suspend
  deriving DecidableEq

namespace Request

/-- A request as a step of the loop. -/
def step : Request → LoopStep
  | .output payload => .main (.output payload)
  | .suspend => .main .suspend

/-- A request as a call of the engine. -/
def call : Request → Op
  | .output payload => .output payload
  | .suspend => .usbReset

end Request

/-- An iteration of the loop without an electrical change, at the end of which the endpoint takes a
    report. -/
structure Turn where
  requests : List Request
  nowUs : U64
  unmounted : Bool

/-- The end of an iteration, from the clock on. -/
def closing (nowUs : U64) (unmounted : Bool) : List LoopStep :=
  [.main (.readClock nowUs), .main .takeOverflow, .main .resync, .main .task,
    .main (.report unmounted (some true))]

namespace Turn

/-- The steps of an iteration, with room for a full edge buffer. -/
def steps (t : Turn) : List LoopStep :=
  t.requests.map Request.step ++ (.main .tudTask :: (List.replicate edgeBufferSize (.main .popEdge) ++
    closing t.nowUs t.unmounted))

/-- The calls of an iteration that finds no edge; `word` are the electrical values. -/
def calls (word : U32) (t : Turn) : List Op :=
  t.requests.map Request.call ++
    .task t.nowUs word :: ((if t.unmounted then [.usbReset] else []) ++ [.send t.nowUs true])

end Turn

namespace Engine

/-- Polling a pin finds nothing to do when nothing is pending. -/
theorem pollPin_idle {e : Engine} {n : Gpio} (h : e.isTracking n = true → (e.debounce n).pending = false)
    (nowUs : U64) : e.pollPin nowUs n = e := by
  rw [pollPin_eq_observe]
  split_ifs with ht
  · have hpoll : (e.debounce n).poll nowUs = (e.debounce n, none) := by simp [Debounce.poll, h ht]
    rw [hpoll, observe]
    simp
  · rfl

theorem pollPins_idle {e : Engine} (h : ∀ n, e.isTracking n = true → (e.debounce n).pending = false)
    (nowUs : U64) : e.pollPins nowUs = e := by
  refine Lib.foldl_preserves (P := fun e' => e' = e) (fun e' n he => ?_) _ rfl
  subst he
  exact pollPin_idle (h n) nowUs

/-- The pins a report would show are as they are: the inputs have the values of `word`, and nothing waits. -/
structure Steady (word : U32) (e : Engine) : Prop where
  idle : e.settleActive = false
  agree : ∀ n, modeIsInput (e.config.mode n) = true →
    (e.debounce n).confirmed = hasBit word n ∧ (e.debounce n).pending = false

namespace Steady
variable {word : U32} {e : Engine}

theorem task_eq (h : Steady word e) (nowUs : U64) (inputs : U32) :
    e.task nowUs inputs =
      if e.periodicDue nowUs then { e with pendingReasons := e.pendingReasons ||| reasonPeriodic }
      else e := by
  have hsettles : e.settles nowUs = false := by rw [settles, h.idle, Bool.false_and]
  have hpoll : e.pollPins nowUs = e :=
    pollPins_idle (fun n ht => (h.agree n ((isTracking_iff e n).mp ht).2.2).2) nowUs
  rw [Engine.task_eq, hsettles, if_neg Bool.false_ne_true, pollTask, hpoll]

theorem task (h : Steady word e) (nowUs : U64) (inputs : U32) : Steady word (e.task nowUs inputs) := by
  rw [h.task_eq]
  split_ifs
  · exact ⟨h.idle, h.agree⟩
  · exact h

theorem output (h : Steady word e) (payload : List U8) : Steady word (e.output payload).1 := by
  simp only [Engine.output]
  split
  · exact h
  · exact ⟨h.idle, h.agree⟩

theorem usbReset (h : Steady word e) : Steady word e.usbReset := by
  simp only [Engine.usbReset]
  split_ifs
  · exact h
  · exact ⟨h.idle, h.agree⟩

theorem send (h : Steady word e) (nowUs : U64) (accepted : Bool) :
    Steady word (e.sendStatusReport nowUs accepted).1 := by
  rw [sendStatusReport_eq]
  split_ifs
  · exact ⟨h.idle, h.agree⟩
  · exact ⟨h.idle, h.agree⟩

end Steady

/-- What a report says is how the pins are. -/
structure Shows (word : U32) (e : Engine) (r : Status) : Prop where
  complete : hasFlag r.flags flagMoreEvents = false
  monitored : r.monitored = inputMask e.config
  outputs : r.outputs = outputMask e.config
  input : ∀ n, modeIsInput (e.config.mode n) = true → hasBit r.levels n = hasBit word n
  output : ∀ n, e.config.mode n = modeOutput → hasBit r.levels n = hasBit e.outputLevels n

/-- It depends on the configuration and the output levels only. -/
theorem Shows.congr {word : U32} {e e' : Engine} {r : Status} (h : Shows word e r)
    (hconfig : e'.config = e.config) (hlevels : e'.outputLevels = e.outputLevels) : Shows word e' r := by
  refine ⟨h.complete, ?_, ?_, ?_, ?_⟩
  · rw [hconfig]; exact h.monitored
  · rw [hconfig]; exact h.outputs
  · rw [hconfig]; exact h.input
  · rw [hconfig, hlevels]; exact h.output

end Engine

namespace Device
open Engine

/-- A report that leaves nothing queued shows how the pins are. -/
theorem shows_report {word : U32} {d : Device} (hinv : d.Inv) (h : Steady word d.engine)
    (hd : d.engine.drains = true) (nowUs : U64) : Shows word d.engine (d.engine.report nowUs) := by
  have hpublished : d.published = d.engine.config := (hinv.settled h.idle).2.2
  have hmonitored : d.engine.monitored = inputMask d.engine.config := by
    rw [← hpublished]; exact hinv.monitored
  have houtputs : d.engine.outputs = outputMask d.engine.config := by rw [← hpublished]; exact hinv.outputs
  refine ⟨by rw [hasFlag_moreEvents, hd]; rfl, hmonitored, houtputs, fun n hn => ?_, fun n hn => ?_⟩
  · rw [levels_of_drains hinv hd nowUs (by rw [hmonitored, hasBit_inputMask]; exact hn)]
    exact (h.agree n hn).1
  · have hnot : hasBit d.engine.monitored n = false := by
      rw [hmonitored, hasBit_inputMask, hn, modeIsInput_modeOutput]
    simp [report, reflected, hd, hnot, houtputs, hn]

/-- What the calls of a turn before the send attempt do to steady pins: the queue, the configuration and the
    reports stay, and an output that changes is going to be reported. -/
structure Undisturbed (word : U32) (d d' : Device) : Prop where
  inv : d'.Inv
  steady : Steady word d'.engine
  queue : d'.engine.queue = d.engine.queue
  config : d'.engine.config = d.engine.config
  sent : d'.sent = d.sent
  outputs : d'.engine.pendingReasons = 0 → d.engine.pendingReasons = 0 ∧
    d'.engine.outputLevels = d.engine.outputLevels

theorem Undisturbed.refl {word : U32} {d : Device} (hinv : d.Inv) (h : Steady word d.engine) :
    Undisturbed word d d :=
  ⟨hinv, h, rfl, rfl, rfl, fun hzero => ⟨hzero, rfl⟩⟩

theorem Undisturbed.trans {word : U32} {d d' d'' : Device} (h : Undisturbed word d d')
    (h' : Undisturbed word d' d'') : Undisturbed word d d'' where
  inv := h'.inv
  steady := h'.steady
  queue := h'.queue.trans h.queue
  config := h'.config.trans h.config
  sent := h'.sent.trans h.sent
  outputs hzero := by
    obtain ⟨hzero', hlevels'⟩ := h'.outputs hzero
    obtain ⟨hzero, hlevels⟩ := h.outputs hzero'
    exact ⟨hzero, hlevels'.trans hlevels⟩

/-- The calls of a turn before the send attempt. -/
def Turns (op : Op) : Prop :=
  (∃ payload, op = .output payload) ∨ op = .usbReset ∨ ∃ nowUs inputs, op = .task nowUs inputs

theorem undisturbed_step {word : U32} {d : Device} (hinv : d.Inv) (h : Steady word d.engine) {op : Op}
    (hop : Turns op) : Undisturbed word d (d.step op) := by
  have hinv' := step_inv d op hinv
  rcases hop with ⟨payload, rfl⟩ | rfl | ⟨nowUs, inputs, rfl⟩
  · refine ⟨hinv', h.output payload, ?_, ?_, rfl, ?_⟩ <;> simp only [step, output] <;> split
    · rfl
    · rfl
    · rfl
    · rfl
    · exact fun hzero => ⟨hzero, rfl⟩
    · exact fun hzero => absurd (BitVec.or_eq_zero_iff.mp hzero).2 (by decide)
  · refine ⟨hinv', h.usbReset, ?_, ?_, rfl, ?_⟩ <;> simp only [step, usbReset] <;> split_ifs
    · rfl
    · rfl
    · rfl
    · rfl
    · exact fun hzero => ⟨hzero, rfl⟩
    · exact fun hzero => absurd (BitVec.or_eq_zero_iff.mp hzero).2 (by decide)
  · refine ⟨hinv', h.task nowUs inputs, ?_, ?_, rfl, ?_⟩ <;> simp only [step, h.task_eq] <;> split_ifs
    · rfl
    · rfl
    · rfl
    · rfl
    · exact fun hzero => absurd (BitVec.or_eq_zero_iff.mp hzero).2 (by decide)
    · exact fun hzero => ⟨hzero, rfl⟩

theorem undisturbed_run {word : U32} : ∀ {ops : List Op} {d : Device}, d.Inv → Steady word d.engine →
    (∀ op ∈ ops, Turns op) →
    Undisturbed word d (Lib.run step d ops)
  | [], _, hinv, h, _ => Undisturbed.refl hinv h
  | op :: ops, d, hinv, h, hops => by
    have hstep := undisturbed_step hinv h (hops op List.mem_cons_self)
    exact hstep.trans (undisturbed_run hstep.inv hstep.steady fun op' hop =>
      hops op' (List.mem_cons_of_mem op hop))

/-- Steady pins at the end of a turn, which began with `d`. -/
structure Turned (word : U32) (d d' : Device) : Prop where
  inv : d'.Inv
  steady : Steady word d'.engine
  config : d'.engine.config = d.engine.config
  queue : d'.engine.queue.toList = d.engine.queue.toList.drop eventsPerReport
  report : d.engine.queue.toList.length ≤ eventsPerReport →
    (∃ r, d'.sent = d.sent ++ [r] ∧ Shows word d'.engine r.status) ∨
      d'.sent = d.sent ∧ d'.engine.outputLevels = d.engine.outputLevels ∧
        d'.engine.lastSentUs = d.engine.lastSentUs

theorem not_send {op : Op} (h : Turns op) (nowUs : U64) (accepted : Bool) : op ≠ .send nowUs accepted := by
  rintro rfl
  rcases h with ⟨_, hc⟩ | hc | ⟨_, _, hc⟩ <;> cases hc

theorem turned_send {word : U32} {d : Device} (hinv : d.Inv) (h : Steady word d.engine) {ops : List Op}
    (hops : ∀ op ∈ ops, Turns op) (nowUs : U64) :
    Turned word d (Lib.run step d (ops ++ [.send nowUs true])) := by
  have hbefore := undisturbed_run hinv h hops
  have hlast := (run_silent ops d fun op hop => not_send (hops op hop)).2
  rw [Lib.run_append]
  generalize Lib.run step d ops = d' at hbefore hlast ⊢
  have hsent := d'.sent_step (.send nowUs true)
  have hinv' := step_inv d' (.send nowUs true) hbefore.inv
  have hsteady : Steady word (d'.step (.send nowUs true)).engine := hbefore.steady.send nowUs true
  rw [Lib.run_cons, Lib.run_nil]
  rcases d'.send_cases nowUs with ⟨hc, he⟩ | ⟨hc, he, hready⟩
  · rw [hc, hbefore.sent] at hsent
    refine ⟨hinv', hsteady, ?_, ?_, fun hlen => Or.inl ⟨_, hsent, ?_⟩⟩
    · rw [he]
      exact hbefore.config
    · rw [he, toList_handOver, hbefore.queue]
    · have hdrains : d'.engine.drains = true := by
        rw [drains, hbefore.queue]
        exact decide_eq_true hlen
      rw [he]
      exact (shows_report hbefore.inv hbefore.steady hdrains nowUs).congr rfl rfl
  · rw [hc, hbefore.sent] at hsent
    rw [Engine.reportReady, decide_eq_false_iff_not, not_not] at hready
    have hnil : d.engine.queue.toList = [] := by
      rw [← hbefore.queue]
      exact List.eq_nil_of_length_eq_zero (by rw [EventQueue.length_toList, hready.2.1]; rfl)
    refine ⟨hinv', hsteady, ?_, ?_, fun _ => Or.inr ⟨by simpa using hsent, ?_, ?_⟩⟩
    · rw [he]
      exact hbefore.config
    · rw [he, hnil]
      exact (congrArg EventQueue.toList hbefore.queue).trans hnil
    · rw [he]
      exact (hbefore.outputs hready.1).2
    · rw [he]
      exact hlast

/-! ### Turns -/

/-- The device after a turn that finds no edge. -/
def turn (word : U32) (d : Device) (t : Turn) : Device := Lib.run step d (t.calls word)

theorem turns_requests (requests : List Request) : ∀ op ∈ requests.map Request.call, Turns op := by
  intro op hop
  obtain ⟨request, -, rfl⟩ := List.mem_map.mp hop
  cases request with
  | output payload => exact Or.inl ⟨payload, rfl⟩
  | suspend => exact Or.inr (Or.inl rfl)

theorem turns_reset (unmounted : Bool) : ∀ op ∈ (if unmounted then [Op.usbReset] else []), Turns op := by
  intro op hop
  cases unmounted with
  | true => exact Or.inr (Or.inl (List.mem_singleton.mp hop))
  | false => cases hop

theorem turned {word : U32} {d : Device} (hinv : d.Inv) (h : Steady word d.engine) (t : Turn) :
    Turned word d (d.turn word t) := by
  have hcalls : t.calls word = (t.requests.map Request.call ++
      .task t.nowUs word :: (if t.unmounted then [.usbReset] else [])) ++ [.send t.nowUs true] := by
    simp [Turn.calls]
  rw [turn, hcalls]
  refine turned_send hinv h (fun op hop => ?_) t.nowUs
  rcases List.mem_append.mp hop with hop | hop
  · exact turns_requests _ op hop
  · rcases List.mem_cons.mp hop with rfl | hop
    · exact Or.inr (Or.inr ⟨_, _, rfl⟩)
    · exact turns_reset _ op hop

/-- After a number of turns as many reports have left the queue. -/
theorem turned_run {word : U32} : ∀ (turns : List Turn) {d : Device}, d.Inv → Steady word d.engine →
    (Lib.run (turn word) d turns).Inv ∧ Steady word (Lib.run (turn word) d turns).engine ∧
      (Lib.run (turn word) d turns).engine.config = d.engine.config ∧
      (Lib.run (turn word) d turns).engine.queue.toList =
        d.engine.queue.toList.drop (eventsPerReport * turns.length)
  | [], _, hinv, h => ⟨hinv, h, rfl, rfl⟩
  | t :: turns, d, hinv, h => by
    have hturned := turned hinv h t
    obtain ⟨hinv', hsteady, hconfig, hqueue⟩ := turned_run turns hturned.inv hturned.steady
    refine ⟨hinv', hsteady, hconfig.trans hturned.config, ?_⟩
    rw [Lib.run_cons, hqueue, hturned.queue, List.drop_drop, List.length_cons, Nat.mul_succ, Nat.add_comm]

/-- With an empty queue, the latest report shows how the pins are as soon as there is one later than `t`. -/
theorem shown_run {word : U32} {t : ℕ} : ∀ (turns : List Turn) {d : Device}, d.Inv → Steady word d.engine →
    d.engine.queue.toList = [] →
    (t < d.engine.lastSentUs.toNat → ∃ r, d.sent.getLast? = some r ∧ Shows word d.engine r.status) →
    t < (Lib.run (turn word) d turns).engine.lastSentUs.toNat →
    ∃ r, (Lib.run (turn word) d turns).sent.getLast? = some r ∧
      Shows word (Lib.run (turn word) d turns).engine r.status
  | [], _, _, _, _, hshown, hlate => hshown hlate
  | next :: turns, d, hinv, h, hnil, hshown, hlate => by
    have hturned := turned hinv h next
    refine shown_run turns hturned.inv hturned.steady (by rw [hturned.queue, hnil, List.drop_nil])
      (fun hlater => ?_) hlate
    rcases hturned.report (by rw [hnil]; exact Nat.zero_le _) with ⟨r, hsent, hr⟩ | ⟨hsent, hlevels, hlast⟩
    · exact ⟨r, by rw [hsent, List.getLast?_concat], hr⟩
    · obtain ⟨r, hr, hshows⟩ := hshown (by rw [← hlast]; exact hlater)
      exact ⟨r, by rw [hsent, hr], hshows.congr hturned.config hlevels⟩

/-- After a turn the latest report is younger than the interval. -/
theorem young_turn (word : U32) {d : Device} {t : Turn} (h : d.engine.lastSentUs.toNat ≤ t.nowUs.toNat) :
    (d.turn word t).engine.lastSentUs.toNat ≤ t.nowUs.toNat ∧
      t.nowUs.toNat < (d.turn word t).engine.lastSentUs.toNat + intervalUs := by
  have hrequests : ∀ op ∈ t.requests.map Request.call, ∀ nowUs accepted, op ≠ .send nowUs accepted :=
    fun op hop =>
      not_send (turns_requests _ op hop)
  have hreset : ∀ op ∈ (if t.unmounted then [Op.usbReset] else []), ∀ nowUs accepted,
      op ≠ .send nowUs accepted :=
    fun op hop => not_send (turns_reset _ op hop)
  have hfirst := (run_silent _ d hrequests).2
  rw [turn, Turn.calls, Lib.run_append, Lib.run_cons, Lib.run_append, Lib.run_cons, Lib.run_nil]
  generalize Lib.run step d (t.requests.map Request.call) = d₁ at hfirst ⊢
  have htask : (d₁.step (.task t.nowUs word)).engine.lastSentUs = d₁.engine.lastSentUs :=
    d₁.lastSentUs_step (.task _ _)
  have hsecond := (run_silent _ (d₁.step (.task t.nowUs word)) hreset).2
  have hpending := pendingReasons_silent _ (d₁.step (.task t.nowUs word)) hreset
  generalize Lib.run step (d₁.step (.task t.nowUs word)) (if t.unmounted then [.usbReset] else []) =
    d₂ at hsecond hpending ⊢
  have hinterval : 0 < intervalUs := by decide
  rcases d₂.lastSentUs_send t.nowUs with hsent | ⟨hzero, hsent⟩
  · rw [hsent]
    omega
  · have hnot : ¬ d₁.engine.lastSentUs.toNat + intervalUs ≤ t.nowUs.toNat := fun hdue =>
      pending_task hdue word (hpending hzero)
    rw [hsent, hsecond, htask]
    rw [hfirst] at hnot ⊢
    omega

theorem young_run (word : U32) {δ : ℕ} :
    ∀ (turns : List Turn) {d : Device} {t : ℕ}, d.engine.lastSentUs.toNat ≤ t →
      Lib.Paced δ (t :: turns.map fun turn => turn.nowUs.toNat) →
    (Lib.run (turn word) d turns).engine.lastSentUs.toNat ≤
      (turns.map fun turn => turn.nowUs.toNat).getLastD t ∧
      (turns ≠ [] → (turns.map fun turn => turn.nowUs.toNat).getLastD t <
        (Lib.run (turn word) d turns).engine.lastSentUs.toNat + intervalUs)
  | [], _, _, h, _ => ⟨h, fun hc => absurd rfl hc⟩
  | next :: turns, d, t, h, hpace => by
    rw [List.map_cons, Lib.Paced.cons_iff] at hpace
    obtain ⟨hby, hyoung⟩ := young_turn word (h.trans hpace.1.1)
    obtain ⟨hby', hyoung'⟩ := young_run word turns hby hpace.2
    rw [List.map_cons, List.getLastD_cons, Lib.run_cons]
    refine ⟨hby', fun _ => ?_⟩
    cases turns with
    | nil => exact hyoung
    | cons => exact hyoung' (List.cons_ne_nil _ _)

/-! ### From a resync on -/

/-- What a send attempt, an output command and a suspend leave alone. -/
theorem resynced_of_fields {word : U32} {t : U64} {d : Device} (h : Resynced word t d) (op : Op)
    (hdebounce : (d.step op).engine.debounce = d.engine.debounce)
    (htrack : ∀ n, (d.step op).engine.isTracking n = d.engine.isTracking n)
    (hdeadline : (d.step op).engine.settleDeadlineUs = d.engine.settleDeadlineUs) :
    Resynced word t (d.step op) := by
  refine ⟨step_inv d op h.inv, timed_step d op h.timed, ?_, fun n ht => ?_, fun n => ?_⟩
  · rw [SettlesBy, hdeadline]
    exact h.settles
  · rw [hdebounce]
    exact h.raw n (by rw [← htrack]; exact ht)
  · rw [hdebounce]
    exact h.since n

/-- The calls of a turn that finds no edge. -/
def OfTurn (word : U32) (op : Op) : Prop :=
  (∃ payload, op = .output payload) ∨ op = .usbReset ∨ (∃ nowUs, op = .task nowUs word) ∨
    ∃ nowUs, op = .send nowUs true

theorem resynced_step {word : U32} {t : U64} {d : Device} {op : Op} (h : Resynced word t d)
    (hop : OfTurn word op) : Resynced word t (d.step op) := by
  rcases hop with ⟨payload, rfl⟩ | rfl | ⟨nowUs, rfl⟩ | ⟨nowUs, rfl⟩
  · refine resynced_of_fields h _ ?_ ?_ ?_ <;> simp only [step, output] <;> split <;>
      first | rfl | exact fun _ => rfl
  · refine resynced_of_fields h _ ?_ ?_ ?_ <;> simp only [step, usbReset] <;> split_ifs <;>
      first | rfl | exact fun _ => rfl
  · exact resynced_task h nowUs
  · refine resynced_of_fields h _ ?_ ?_ ?_ <;> simp only [step, sendStatusReport_eq] <;> split_ifs <;>
      first | rfl | exact fun _ => rfl

theorem ofTurn {word : U32} {t : Turn} {op : Op} (h : op ∈ t.calls word) : OfTurn word op := by
  simp only [Turn.calls, List.mem_append, List.mem_map, List.mem_cons, List.not_mem_nil, or_false] at h
  rcases h with ⟨request, -, rfl⟩ | rfl | h | rfl
  · cases request with
    | output payload => exact Or.inl ⟨payload, rfl⟩
    | suspend => exact Or.inr (Or.inl rfl)
  · exact Or.inr (Or.inr (Or.inl ⟨_, rfl⟩))
  · rcases turns_reset _ op h with h | h | ⟨_, _, rfl⟩
    · exact Or.inl h
    · exact Or.inr (Or.inl h)
    · cases hu : t.unmounted <;> simp [hu] at h
  · exact Or.inr (Or.inr (Or.inr ⟨_, rfl⟩))

theorem config_turns {word : U32} (turns : List Turn) (d : Device) :
    (Lib.run (turn word) d turns).engine.config = d.engine.config := by
  refine Lib.run_preserves (P := fun d' : Device => d'.engine.config = d.engine.config) (fun d' t h => ?_)
    turns rfl
  refine Lib.run_of_forall (P := fun d' : Device => d'.engine.config = d.engine.config) (A := OfTurn word)
    (fun d' op h hop => ?_) _ h fun _ hop => ofTurn hop
  rw [config_step]
  rcases hop with ⟨_, rfl⟩ | rfl | ⟨_, rfl⟩ | ⟨_, rfl⟩ <;> exact h

theorem resynced_turn {word : U32} {t : U64} {d : Device} (h : Resynced word t d) (next : Turn) :
    Resynced word t (d.turn word next) :=
  Lib.run_of_forall (A := OfTurn word) (fun _ _ h hop => resynced_step h hop) _ h fun _ hop => ofTurn hop

/-- A task call after the settle time ends the settle. -/
theorem idle_task {word : U32} {t nowUs : U64} {d : Device} (h : Resynced word t d)
    (hlate : t.toNat + largestDebounceUs ≤ nowUs.toNat) :
    (d.step (.task nowUs word)).engine.settleActive = false := by
  have hsettles := h.settles
  have hdue : nowUs ≥ d.engine.settleDeadlineUs := by
    rw [SettlesBy, show settleUs.toNat = 1000 from rfl] at hsettles
    rw [largestDebounceUs] at hlate
    rw [ge_iff_le, BitVec.le_def]
    omega
  have hpoll : ∀ e : Engine, (e.pollTask nowUs).settleActive = e.settleActive := fun e => by
    rw [← (e.frame_pollPins nowUs).settleActive, pollTask]
    split_ifs <;> rfl
  rw [step, task_eq, hpoll, settles, decide_eq_true hdue, Bool.and_true]
  cases hactive : d.engine.settleActive with
  | true => rw [if_pos rfl, finishSettle_eq]
  | false => exact hactive

/-- The turn after the largest debounce time finds nothing left to wait for. -/
theorem steady_turn {word : U32} {t : U64} {d : Device} (h : Resynced word t d) {next : Turn}
    (hlate : t.toNat + largestDebounceUs ≤ next.nowUs.toNat) :
    (d.turn word next).Inv ∧ Steady word (d.turn word next).engine ∧
      (d.turn word next).engine.queue.toList.length ≤ eventQueueSize - eventsPerReport := by
  have hrequests : Resynced word t (Lib.run step d (next.requests.map Request.call)) :=
    Lib.run_of_forall (A := OfTurn word) (fun _ _ h hop => resynced_step h hop) _ h fun op hop =>
      ofTurn (t := next) (List.mem_append_left _ hop)
  rw [turn, Turn.calls, Lib.run_append, Lib.run_cons]
  generalize Lib.run step d (next.requests.map Request.call) = d₁ at hrequests ⊢
  have htask := resynced_task hrequests next.nowUs
  have hidle := idle_task hrequests hlate
  have hfound := fun n => recovered_task hrequests hlate (n := n)
  generalize d₁.step (.task next.nowUs word) = d₂ at htask hidle hfound ⊢
  have hsteady : Steady word d₂.engine := by
    refine ⟨hidle, fun n hmode => ?_⟩
    obtain ⟨ht, hpending⟩ := hfound n hmode
    have hwf := htask.inv.toRep.debounce n
    rw [Debounce.WF, hpending] at hwf
    refine ⟨?_, hpending⟩
    rw [← htask.raw n ht]
    by_contra hne
    exact absurd (hwf.mpr (Ne.symm hne)) (by decide)
  have hturned := turned_send htask.inv hsteady (turns_reset next.unmounted) next.nowUs
  refine ⟨hturned.inv, hturned.steady, ?_⟩
  rw [hturned.queue, List.length_drop]
  exact Nat.sub_le_sub_right (EventQueue.length_le htask.inv.queue) _

/-- From a resync on it takes the largest debounce time, five turns and the interval. -/
theorem shown_of_resynced {word : U32} {t : U64} {d : Device} (h : Resynced word t d)
    (hlast : d.engine.lastSentUs.toNat ≤ t.toNat) {turns : List Turn} {δ : ℕ}
    (hpace : Lib.Paced δ (t.toNat :: turns.map fun turn => turn.nowUs.toNat))
    (hlong : t.toNat + largestDebounceUs + intervalUs + 5 * δ ≤
      (turns.map fun turn => turn.nowUs.toNat).getLastD t.toNat) :
    ∃ r, (Lib.run (turn word) d turns).sent.getLast? = some r ∧
      Shows word (Lib.run (turn word) d turns).engine r.status := by
  have hlargest : 0 < largestDebounceUs := by decide
  have hinterval : 0 < intervalUs := by decide
  -- the first turn after the largest debounce time
  obtain ⟨times, steadyUs, laterTimes, hsplit, hfrom, hto, hpace'⟩ :=
    hpace.reaches (t.toNat + largestDebounceUs) (by omega) (by omega)
  obtain ⟨waiting, rest, rfl, rfl, hrest⟩ := List.map_eq_append_iff.mp hsplit
  obtain ⟨next, later, rfl, rfl, rfl⟩ := List.map_eq_cons_iff.mp hrest
  have hwaited : Resynced word t (Lib.run (turn word) d waiting) :=
    Lib.run_preserves (P := Resynced word t) (fun _ next h => resynced_turn h next) waiting h
  obtain ⟨hinv, hsteady, hqueue⟩ := steady_turn hwaited hfrom
  have hend : ((waiting ++ next :: later).map fun turn => turn.nowUs.toNat).getLastD t.toNat =
      (later.map fun turn => turn.nowUs.toNat).getLastD next.nowUs.toNat := by
    rw [hsplit, Lib.getLastD_append_cons]
  have hyoung := (young_run word _ hlast hpace).2 (by simp)
  rw [hend] at hlong hyoung
  -- four more turns empty the queue
  have hcount : 4 ≤ later.length := by
    have hbound := hpace'.getLast_le
    rw [List.length_map] at hbound
    by_contra hfew
    have : δ * later.length ≤ δ * 3 := Nat.mul_le_mul_left δ (by omega)
    omega
  obtain ⟨draining, rest, rfl, hlen⟩ : ∃ draining rest, later = draining ++ rest ∧ draining.length = 4 :=
    ⟨later.take 4, later.drop 4, (List.take_append_drop 4 later).symm, List.length_take_of_le hcount⟩
  obtain ⟨hinv', hsteady', -, hdrained⟩ := turned_run draining hinv hsteady
  have hempty : (Lib.run (turn word) (turn word (Lib.run (turn word) d waiting) next)
      draining).engine.queue.toList = [] := by
    rw [hdrained, List.drop_eq_nil_iff, hlen]
    exact hqueue.trans (by decide)
  rw [List.map_append] at hpace'
  have hdrainedBy := hpace'.left.getLast_le
  rw [List.length_map, hlen] at hdrainedBy
  rw [show waiting ++ next :: (draining ++ rest) = (waiting ++ next :: draining) ++ rest by simp]
    at hpace hyoung ⊢
  have hprefix : Lib.Paced δ
      (t.toNat :: (waiting ++ next :: draining).map fun turn => turn.nowUs.toNat) := by
    rw [List.map_append] at hpace
    exact hpace.left
  have hsent := (young_run word _ hlast hprefix).1
  rw [List.map_append, List.map_cons, Lib.getLastD_append_cons] at hsent
  rw [Lib.run_append] at hyoung ⊢
  have hrun : Lib.run (turn word) d (waiting ++ next :: draining) =
      Lib.run (turn word) (turn word (Lib.run (turn word) d waiting) next) draining := by simp
  rw [← hrun] at hinv' hsteady' hempty
  refine shown_run rest hinv' hsteady' hempty (fun hlater => absurd hsent (Nat.not_le.mpr hlater)) ?_
  omega

end Device

end Hidpin.Firmware
