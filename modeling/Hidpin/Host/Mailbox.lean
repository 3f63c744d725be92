import Hidpin.Host.Posted
import Hidpin.Lib.Run

/-! The mailbox between the application and the watch thread. Its critical sections are the steps here, with
    the work of the thread between them, so that a call or an event taken can come between any two. -/

namespace Hidpin.Host
open Lib

variable {ω : Type}

/-- Where the watch thread is: before the critical section of `main_loop`, at the requests it took there, at
    an alarm or a read of the device, before the critical section that ends `run`, or past it. -/
inductive Stage where
  | ready
  | serving
  | attending
  | leaving (error : Option Error)
  | ended
  | stopped (stop : Stop)

/-- Whether the thread is in `main_loop`. -/
def Stage.inLoop : Stage → Bool
  | .ready | .serving | .attending => true
  | _ => false

/-- What `call` returns for a request that it put into the mailbox: what the closure sent, or `WatcherClosed`
    when the closure was dropped. -/
inductive CallAnswer where
  | sent (result : Except Error Unit)
  | closed

/-- A watcher, the calls so far and the events taken. A call is named by its place among the accepted
    ones. -/
structure Mailbox (ω : Type) where
  ctx : Ctx ω
  stage : Stage
  taken : List Event
  calls : List Request
  /-- The calls whose closures are in the mailbox. -/
  queued : List ℕ
  /-- The calls whose closures the thread took and did not run yet. -/
  running : List ℕ
  answers : List (ℕ × CallAnswer)

namespace Mailbox

/-- One look of `take` at the mailbox: an event, or the end, or nothing for now. -/
def look (m : Mailbox ω) : Except Error (Option Event) := match m.ctx.shared.out with
  | event :: _ => .ok (some event)
  | [] => if m.ctx.shared.finished then .error .watcherClosed else .ok none

/-- The application takes an event. -/
def take (m : Mailbox ω) : Mailbox ω := match m.ctx.shared.out with
  | event :: out =>
    { m with ctx := { m.ctx with shared := { m.ctx.shared with out } }, taken := m.taken ++ [event] }
  | [] => m

/-- `call`, up to the wait for the answer. -/
def call (m : Mailbox ω) (request : Request) : Mailbox ω :=
  if m.ctx.shared.finished || m.ctx.shared.stopping then m
  else
    { m with
      ctx := m.ctx.call request
      calls := m.calls ++ [request]
      queued := m.queued ++ [m.calls.length] }

variable [World ω]

/-- The critical section of `main_loop`. -/
def enter (m : Mailbox ω) : Mailbox ω :=
  let c := (Watch.deliver.exec m.ctx).2
  if c.shared.stopping then { m with ctx := c, stage := .leaving none }
  else
    let c := (Watch.takeRequests.exec c).2
    { m with
      ctx := c, queued := [], running := m.queued,
      stage := if c.serving = [] then .attending else .serving }

/-- Runs the next closure, which sends its result. -/
def serve (m : Mailbox ω) (request : Request) (rest : List Request) : Mailbox ω :=
  match (Watch.serve request).exec { m.ctx with serving := rest } with
  | (.ok (), c) =>
    { m with
      ctx := c
      running := m.running.tail
      answers := m.answers ++
        (m.running.zip (c.replies.drop m.ctx.replies.length)).map fun (call, _, result) =>
          (call, .sent result)
      stage := if rest = [] then .ready else .serving }
  | (.error stop, c) => { m with ctx := c, stage := .stopped stop }

/-- A turn of the thread that attends to an alarm or to the device. -/
def attend (m : Mailbox ω) : Mailbox ω := match Watch.attend.exec m.ctx with
  | (.ok (), c) => { m with ctx := c, stage := .ready }
  | (.error (.fatal error), c) => { m with ctx := c, stage := .leaving (some error) }
  | (.error stop, c) => { m with ctx := c, stage := .stopped stop }

/-- The critical section that ends `run`; it drops the closures in the mailbox. -/
def leave (m : Mailbox ω) (error : Option Error) : Mailbox ω :=
  { m with
    ctx := m.ctx.finish error
    queued := []
    answers := m.answers ++ m.queued.map fun call => (call, .closed)
    stage := .ended }

/-- The thread goes on to its next critical section, or from it. -/
def turn (m : Mailbox ω) : Mailbox ω := match m.stage with
  | .ready => m.enter
  | .serving => match m.ctx.serving with
    | [] => { m with stage := .ready }
    | request :: rest => m.serve request rest
  | .attending => m.attend
  | .leaving error => m.leave error
  | .ended | .stopped _ => m

/-- What the thread or the application does next. -/
def step (m : Mailbox ω) : Input → Mailbox ω
  | .turn => m.turn
  | .take => m.take
  | .setTargetPins config =>
      if (validatePinConfig config allGpios).1 ≠ .ok then m else m.call (.setTargetPins config)
  | .setOutputs levels => m.call (.setOutputs levels)
  | .close => { m with ctx := { m.ctx with shared := { m.ctx.shared with stopping := true } } }

/-- A watcher that was just started. -/
def start (o : WatchOptions) (w : ω) : Mailbox ω :=
  ⟨(Watcher.start o w).ctx, .ready, [], [], [], [], []⟩

end Mailbox

namespace Mailbox
variable {m : Mailbox ω}

/-! ### The thread -/

section Thread
variable [World ω]

/-- The context is sound as long as the thread is in its loop, and it never panics. -/
structure Live (m : Mailbox ω) : Prop where
  sound : m.stage.inLoop = true → Sound m.ctx
  stopped : ∀ stop, m.stage = .stopped stop → stop = .hangs

/-- What a turn of the thread may do. -/
inductive Turned (m : Mailbox ω) : Mailbox ω → Prop where
  | enter (hstage : m.stage = .ready) : Turned m m.enter
  | idle (hstage : m.stage = .serving) (hserving : m.ctx.serving = []) : Turned m { m with stage := .ready }
  | served {request : Request} {rest : List Request} {reply : Except Error Unit} {c : Ctx ω}
      (hstage : m.stage = .serving) (hserving : m.ctx.serving = request :: rest)
      (hposted : Posted { m.ctx with serving := rest, replies := m.ctx.replies ++ [(request, reply)] } c)
      (hsound : Sound c) :
      Turned m
        { m with
          ctx := c
          running := m.running.tail
          answers := m.answers ++ (m.running.take 1).map fun call => (call, .sent reply)
          stage := if rest = [] then .ready else .serving }
  | attended {c : Ctx ω} (hstage : m.stage = .attending) (hposted : Posted m.ctx c) (hsound : Sound c) :
      Turned m { m with ctx := c, stage := .ready }
  | failed {error : Error} {c : Ctx ω} (hstage : m.stage = .attending) (hposted : Posted m.ctx c) :
      Turned m { m with ctx := c, stage := .leaving (some error) }
  | hung {serving : List Request} {c : Ctx ω} (hstage : m.stage = .serving ∨ m.stage = .attending)
      (hposted : Posted { m.ctx with serving } c) : Turned m { m with ctx := c, stage := .stopped .hangs }
  | leave {error : Option Error} (hstage : m.stage = .leaving error) : Turned m (m.leave error)
  | gone (hstage : m.stage = .ended ∨ m.stage = .stopped .hangs) : Turned m m

theorem zip_one {β : Type} (l : List ℕ) (b : β) : l.zip [b] = (l.take 1).map fun a => (a, b) := by
  cases l <;> simp

theorem turned_serve (h : Live m) (hstage : m.stage = .serving) {request : Request} {rest : List Request}
    (hserving : m.ctx.serving = request :: rest) : Turned m (m.serve request rest) := by
  have hsound : Sound { m.ctx with serving := rest } :=
    (h.sound (by rw [hstage]; rfl)).of_same ⟨rfl, rfl, rfl, rfl, rfl⟩ rfl
  have hserve := Watch.sound_serve request hsound
  have hposted := serve_posted request { m.ctx with serving := rest }
  unfold serve
  split
  · next c heq =>
    rw [Prog.wp_of_exec heq] at hserve hposted
    obtain ⟨reply, hposted⟩ := hposted
    have hreply : c.replies.drop m.ctx.replies.length = [(request, reply)] := by
      rw [hposted.replies, List.drop_left]
    rw [hreply, zip_one, List.map_map]
    exact .served hstage hserving hposted hserve
  · next stop c heq =>
    rw [Prog.wp_of_exec heq] at hserve hposted
    obtain ⟨hfatal, herror, hposted⟩ := hposted
    have hhangs : stop = .hangs := by
      have hends : stop.ends = true := hserve.1
      cases stop with
      | error e => cases herror
      | fatal e => cases hfatal
      | panicked => cases hends
      | hangs => rfl
    rw [hhangs]
    exact .hung (.inl hstage) hposted

theorem turned_attend (h : Live m) (hstage : m.stage = .attending) : Turned m m.attend := by
  have hturned := Watch.turned_attend (h.sound (by rw [hstage]; rfl))
  have hstops := (Posting.attend (ω := ω)).stops m.ctx
  have hposted := (Posting.attend (ω := ω)).keeps m.ctx m.ctx (.refl _)
  unfold attend
  split
  · next c heq =>
    rw [Prog.wp_of_exec heq] at hturned
    rw [heq] at hposted
    exact .attended hstage hposted hturned
  · next error c heq =>
    rw [heq] at hposted
    exact .failed hstage hposted
  · next stop c hfatal heq =>
    rw [Prog.wp_of_exec heq] at hturned hstops
    rw [heq] at hposted
    have hhangs : stop = .hangs := by
      cases stop with
      | error e => cases hstops
      | fatal e => exact absurd rfl (hfatal e)
      | panicked => exact absurd rfl hturned.1
      | hangs => rfl
    rw [hhangs]
    exact .hung (.inr hstage) hposted

theorem turned (h : Live m) : Turned m m.turn := by
  unfold turn
  split
  · next hstage => exact .enter hstage
  · next hstage =>
    split
    · next hserving => exact .idle hstage hserving
    · next hserving => exact turned_serve h hstage hserving
  · next hstage => exact turned_attend h hstage
  · next hstage => exact .leave hstage
  · next hstage => exact .gone (.inl hstage)
  · next hstage => exact .gone (.inr (by rw [hstage, h.stopped _ hstage]))

theorem live_enter (h : Live m) (hstage : m.stage = .ready) : Live m.enter := by
  have hsound := h.sound (by rw [hstage]; rfl)
  unfold enter
  dsimp only
  split
  · exact ⟨nofun, nofun⟩
  · refine ⟨fun _ => hsound.of_same ⟨rfl, rfl, rfl, rfl, rfl⟩ rfl, fun stop hstop => ?_⟩
    dsimp only at hstop
    split at hstop <;> cases hstop

theorem live_turn (h : Live m) : Live m.turn := by
  have hturn := turned h
  generalize m.turn = m' at hturn
  cases hturn with
  | enter hstage => exact live_enter h hstage
  | idle hstage _ => exact ⟨fun _ => h.sound (by rw [hstage]; rfl), nofun⟩
  | served _ _ _ hsound =>
    refine ⟨fun _ => hsound, fun stop hstop => ?_⟩
    dsimp only at hstop
    split at hstop <;> cases hstop
  | attended _ _ hsound => exact ⟨fun _ => hsound, nofun⟩
  | failed _ _ => exact ⟨nofun, nofun⟩
  | hung _ _ => exact ⟨nofun, fun _ hstop => (Stage.stopped.inj hstop).symm⟩
  | leave _ => exact ⟨nofun, nofun⟩
  | gone _ => exact h

theorem live_take (h : Live m) : Live m.take := by
  unfold take
  split
  · exact ⟨fun hin => (h.sound hin).of_same ⟨rfl, rfl, rfl, rfl, rfl⟩ rfl, h.stopped⟩
  · exact h

theorem live_call (h : Live m) (request : Request) : Live (m.call request) := by
  unfold call Ctx.call
  split
  · exact h
  · exact ⟨fun hin => (h.sound hin).of_same ⟨rfl, rfl, rfl, rfl, rfl⟩ rfl, h.stopped⟩

theorem live_step (m : Mailbox ω) (input : Input) (h : Live m) : Live (m.step input) := by
  cases input with
  | turn => exact live_turn h
  | take => exact live_take h
  | setTargetPins config =>
    unfold step
    dsimp only
    split
    · exact h
    · exact live_call h _
  | setOutputs levels => exact live_call h _
  | close => exact ⟨fun hin => (h.sound hin).of_same ⟨rfl, rfl, rfl, rfl, rfl⟩ rfl, h.stopped⟩

end Thread

/-! ### The events -/

/-- What the watcher emitted. -/
def told (m : Mailbox ω) : List Event := m.ctx.emitted.map Emitted.event

/-- An event is taken, in the mailbox or pending as long as the thread runs; at the end they are in the
    mailbox after an error, and dropped otherwise. -/
structure Delivered (m : Mailbox ω) : Prop where
  events : m.stage ≠ .ended → m.taken ++ m.ctx.shared.out ++ m.ctx.loop.pending = m.told
  room : m.stage ≠ .ended → m.ctx.shared.out.length ≤ outCapacity
  error : m.stage ≠ .ended → m.ctx.shared.error = none
  finished : m.ctx.shared.finished = true ↔ m.stage = .ended
  closing : m.stage = .leaving none → m.ctx.shared.stopping = true
  failed : m.stage = .ended → m.ctx.shared.error.isSome = true → m.taken ++ m.ctx.shared.out = m.told
  closed : m.stage = .ended → m.ctx.shared.error = none →
    m.ctx.shared.stopping = true ∧ m.ctx.shared.out = [] ∧ m.taken <+: m.told

/-- The thread outside of its critical sections. -/
theorem Delivered.posted (h : Delivered m) (hstage : m.stage ≠ .ended) {c : Ctx ω} {serving : List Request}
    {replies : List (Request × Except Error Unit)} (hposted : Posted { m.ctx with serving, replies } c)
    {m' : Mailbox ω} (hctx : m'.ctx = c) (htaken : m'.taken = m.taken) (hended : m'.stage ≠ .ended)
    (hleaving : m'.stage ≠ .leaving none) : Delivered m' where
  events _ := by
    obtain ⟨new, hnew, hpending⟩ := hposted.events
    rw [told, hctx, htaken, hposted.shared, hnew, hpending, List.map_append, ← List.append_assoc,
      h.events hstage]
    rfl
  room _ := by
    rw [hctx, hposted.shared]
    exact h.room hstage
  error _ := by
    rw [hctx, hposted.shared]
    exact h.error hstage
  finished := by
    rw [hctx, hposted.shared]
    exact h.finished.trans (iff_of_false hstage hended)
  closing hnone := absurd hnone hleaving
  failed hover := absurd hover hended
  closed hover := absurd hover hended

theorem Delivered.stage (h : Delivered m) (hstage : m.stage ≠ .ended) {stage : Stage}
    (hended : stage ≠ .ended) (hleaving : stage ≠ .leaving none) : Delivered { m with stage } :=
  h.posted hstage (.refl m.ctx) rfl rfl hended hleaving

theorem Delivered.leave (h : Delivered m) {error : Option Error} (hstage : m.stage = .leaving error) :
    Delivered (m.leave error) := by
  have hended : m.stage ≠ .ended := by
    rw [hstage]
    nofun
  have hevents := h.events hended
  have hnone := h.error hended
  cases error with
  | none =>
    refine ⟨nofun, nofun, nofun, iff_of_true rfl rfl, nofun, fun _ hsome => ?_,
      fun _ _ => ⟨h.closing hstage, rfl, ?_⟩⟩
    · change m.ctx.shared.error.isSome = true at hsome
      rw [hnone] at hsome
      cases hsome
    · exact ⟨m.ctx.shared.out ++ m.ctx.loop.pending, by rw [← List.append_assoc]; exact hevents⟩
  | some e =>
    refine ⟨nofun, nofun, nofun, iff_of_true rfl rfl, nofun, fun _ _ => ?_, nofun⟩
    exact (List.append_assoc _ _ _).symm.trans hevents

theorem delivered_take (h : Delivered m) : Delivered m.take := by
  unfold take
  split
  · next event out hout =>
    have hone : m.taken ++ [event] ++ out = m.taken ++ m.ctx.shared.out := by
      rw [hout, List.append_assoc, List.singleton_append]
    refine ⟨fun hended => ?_, fun hended => ?_, h.error, h.finished, h.closing, fun hended hsome => ?_,
      fun hended hnone => ?_⟩
    · rw [hone]
      exact h.events hended
    · have hroom := h.room hended
      rw [hout] at hroom
      exact (Nat.le_succ _).trans hroom
    · rw [hone]
      exact h.failed hended hsome
    · rw [(h.closed hended hnone).2.1] at hout
      cases hout
  · exact h

theorem delivered_call (h : Delivered m) (request : Request) : Delivered (m.call request) := by
  unfold call Ctx.call
  split
  · exact h
  · exact ⟨h.events, h.room, h.error, h.finished, h.closing, h.failed, h.closed⟩

theorem delivered_enter (h : Delivered m) (hstage : m.stage = .ready) : Delivered m.enter := by
  have hended : m.stage ≠ .ended := by
    rw [hstage]
    nofun
  have hevents : m.taken ++
    (m.ctx.shared.out ++ m.ctx.loop.pending.take (outCapacity - m.ctx.shared.out.length)) ++
      m.ctx.loop.pending.drop (outCapacity - m.ctx.shared.out.length) = m.told := by
    rw [List.append_assoc, List.append_assoc, List.take_append_drop, ← List.append_assoc]
    exact h.events hended
  have hroom : (m.ctx.shared.out ++ m.ctx.loop.pending.take (outCapacity - m.ctx.shared.out.length)).length ≤
      outCapacity := by
    have := h.room hended
    rw [List.length_append, List.length_take]
    omega
  have hfinished : ¬ m.ctx.shared.finished = true := fun hfinished => hended (h.finished.mp hfinished)
  unfold enter
  dsimp only
  split
  · next hstopping =>
    exact ⟨fun _ => hevents, fun _ => hroom, fun _ => h.error hended, iff_of_false hfinished nofun,
      fun _ => hstopping, nofun, nofun⟩
  · have hstages : ∀ {p : Prop} [Decidable p], (if p then Stage.attending else .serving) ≠ .ended ∧
        (if p then Stage.attending else .serving) ≠ .leaving none := by
      intro p _
      split <;> exact ⟨nofun, nofun⟩
    exact ⟨fun _ => hevents, fun _ => hroom, fun _ => h.error hended, iff_of_false hfinished hstages.1,
      fun hleaving => absurd hleaving hstages.2, fun hover => absurd hover hstages.1,
      fun hover => absurd hover hstages.1⟩

section Events
variable [World ω]

theorem delivered_turn (hlive : Live m) (h : Delivered m) : Delivered m.turn := by
  have hturn := turned hlive
  generalize m.turn = m' at hturn
  cases hturn with
  | enter hstage => exact delivered_enter h hstage
  | idle hstage _ => exact h.stage (by rw [hstage]; nofun) nofun nofun
  | served hstage _ hposted _ =>
    refine h.posted (by rw [hstage]; nofun) hposted rfl rfl ?_ ?_ <;> dsimp only <;> split <;> nofun
  | attended hstage hposted _ => exact h.posted (by rw [hstage]; nofun) hposted rfl rfl nofun nofun
  | failed hstage hposted => exact h.posted (by rw [hstage]; nofun) hposted rfl rfl nofun nofun
  | hung hstage hposted =>
    refine h.posted ?_ hposted rfl rfl nofun nofun
    rcases hstage with hstage | hstage <;> rw [hstage] <;> nofun
  | leave hstage => exact h.leave hstage
  | gone _ => exact h

theorem delivered_step (input : Input) (hlive : Live m) (h : Delivered m) : Delivered (m.step input) := by
  cases input with
  | turn => exact delivered_turn hlive h
  | take => exact delivered_take h
  | setTargetPins config =>
    unfold step
    dsimp only
    split
    · exact h
    · exact delivered_call h _
  | setOutputs levels => exact delivered_call h _
  | close =>
    exact ⟨h.events, h.room, h.error, h.finished, fun _ => rfl, h.failed, fun hended hnone =>
      ⟨rfl, (h.closed hended hnone).2⟩⟩

end Events

/-! ### The calls -/

/-- Accepted calls are answered in the order in which they came: those whose closures ran with what the
    closures sent, and at the end the others with `WatcherClosed`. -/
structure Answered (m : Mailbox ω) : Prop where
  numbers : m.answers.map Prod.fst ++ m.running ++ m.queued = List.range m.calls.length
  sent : ∃ dropped : List ℕ, (m.stage ≠ .ended → dropped = []) ∧
    m.answers = m.ctx.replies.zipIdx.map (fun x => (x.2, CallAnswer.sent x.1.2)) ++
      dropped.map fun call => (call, .closed)
  ran : m.ctx.replies.map Prod.fst <+: m.calls
  waiting : m.stage ≠ .ended → m.stage ≠ .stopped .hangs →
    m.ctx.replies.map Prod.fst ++ m.ctx.serving ++ m.ctx.shared.requests = m.calls
  running : m.stage ≠ .stopped .hangs → m.running.length = m.ctx.serving.length
  queued : m.queued.length = m.ctx.shared.requests.length
  idle : m.stage ≠ .serving → m.stage ≠ .stopped .hangs → m.ctx.serving = []
  emptied : m.stage = .ended → m.ctx.shared.requests = []

section Answered
variable {m' : Mailbox ω}

/-- What does not touch the calls. -/
theorem Answered.of (h : Answered m) (hreplies : m'.ctx.replies = m.ctx.replies)
    (hserving : m'.ctx.serving = m.ctx.serving) (hrequests : m'.ctx.shared.requests = m.ctx.shared.requests)
    (hanswers : m'.answers = m.answers) (hcalls : m'.calls = m.calls) (hqueued : m'.queued = m.queued)
    (hrunning : m'.running = m.running) (hstage : m'.stage = m.stage) : Answered m' where
  numbers := by rw [hanswers, hrunning, hqueued, hcalls]; exact h.numbers
  sent := by rw [hanswers, hreplies, hstage]; exact h.sent
  ran := by rw [hreplies, hcalls]; exact h.ran
  waiting := by rw [hstage, hreplies, hserving, hrequests, hcalls]; exact h.waiting
  running := by rw [hstage, hrunning, hserving]; exact h.running
  queued := by rw [hqueued, hrequests]; exact h.queued
  idle := by rw [hstage, hserving]; exact h.idle
  emptied := by rw [hstage, hrequests]; exact h.emptied

/-- Another stage of the thread, with nothing to run. -/
theorem Answered.stage (h : Answered m) (hended : m.stage ≠ .ended) (hhangs : m.stage ≠ .stopped .hangs)
    (hserving : m.ctx.serving = []) {stage : Stage} (hnot : stage ≠ .ended) : Answered { m with stage } where
  numbers := h.numbers
  sent := by
    obtain ⟨dropped, hdropped, hanswers⟩ := h.sent
    exact ⟨dropped, fun _ => hdropped hended, hanswers⟩
  ran := h.ran
  waiting _ _ := h.waiting hended hhangs
  running _ := h.running hhangs
  queued := h.queued
  idle _ _ := hserving
  emptied hover := absurd hover hnot

/-- As long as the thread runs, the calls that are answered are those whose closures ran. -/
theorem Answered.answers (h : Answered m) (hended : m.stage ≠ .ended) :
    m.answers = m.ctx.replies.zipIdx.map fun x => (x.2, CallAnswer.sent x.1.2) := by
  obtain ⟨dropped, hdropped, hanswers⟩ := h.sent
  rw [hanswers, hdropped hended, List.map_nil, List.append_nil]

theorem Answered.running_nil (h : Answered m) (hhangs : m.stage ≠ .stopped .hangs)
    (hserving : m.ctx.serving = []) : m.running = [] :=
  List.eq_nil_of_length_eq_zero (by rw [h.running hhangs, hserving]; rfl)

/-- The next closure is that of the call after those that have a reply. -/
theorem Answered.running_cons (h : Answered m) (hended : m.stage ≠ .ended) {call : ℕ} {calls : List ℕ}
    (hrunning : m.running = call :: calls) : call = m.ctx.replies.length := by
  have hlength : (m.answers.map Prod.fst).length = m.ctx.replies.length := by
    rw [h.answers hended, List.length_map, List.length_map, List.length_zipIdx]
  have hnumbers := congrArg (fun l => l[m.ctx.replies.length]?) h.numbers
  rw [hrunning, List.append_assoc, List.getElem?_append_right (le_of_eq hlength), hlength, Nat.sub_self,
    List.cons_append, List.getElem?_cons_zero] at hnumbers
  obtain ⟨hlt, hcall⟩ := List.getElem?_eq_some_iff.mp hnumbers.symm
  rw [← hcall, List.getElem_range]

theorem answered_enter (h : Answered m) (hstage : m.stage = .ready) : Answered m.enter := by
  have hended : m.stage ≠ .ended := by
    rw [hstage]
    nofun
  have hhangs : m.stage ≠ .stopped .hangs := by
    rw [hstage]
    nofun
  have hserving : m.ctx.serving = [] := h.idle (by rw [hstage]; nofun) hhangs
  have hrunning := h.running_nil hhangs hserving
  unfold enter
  dsimp only
  split
  · have hleaving : Answered { m with stage := .leaving none } := h.stage hended hhangs hserving nofun
    exact hleaving.of rfl rfl rfl rfl rfl rfl rfl rfl
  · have hnumbers := h.numbers
    have hwaiting := h.waiting hended hhangs
    rw [hrunning, List.append_nil] at hnumbers
    rw [hserving, List.append_nil] at hwaiting
    refine ⟨?_, ⟨[], fun _ => rfl, ?_⟩, h.ran, fun _ _ => ?_, fun _ => h.queued, rfl,
      fun hnot _ => ?_, fun _ => rfl⟩
    · rw [List.append_nil]
      exact hnumbers
    · rw [List.map_nil, List.append_nil]
      exact h.answers hended
    · exact (List.append_nil _).trans hwaiting
    · by_contra hne
      exact hnot (if_neg hne)

theorem answered_served (h : Answered m) {request : Request} {rest : List Request}
    {reply : Except Error Unit} {c : Ctx ω} (hstage : m.stage = .serving)
    (hserving : m.ctx.serving = request :: rest)
    (hposted : Posted { m.ctx with serving := rest, replies := m.ctx.replies ++ [(request, reply)] } c) :
    Answered
      { m with
        ctx := c
        running := m.running.tail
        answers := m.answers ++ (m.running.take 1).map fun call => (call, .sent reply)
        stage := if rest = [] then .ready else .serving } := by
  have hended : m.stage ≠ .ended := by
    rw [hstage]
    nofun
  have hhangs : m.stage ≠ .stopped .hangs := by
    rw [hstage]
    nofun
  have hlength := h.running hhangs
  have hwaiting := h.waiting hended hhangs
  rw [hserving] at hlength hwaiting
  obtain ⟨call, calls, hrunning⟩ := List.exists_cons_of_length_eq_add_one hlength
  have hcall := h.running_cons hended hrunning
  have hranall : (m.ctx.replies ++ [(request, reply)]).map Prod.fst ++ rest ++
      m.ctx.shared.requests = m.calls := by
    rw [List.map_append, ← hwaiting]
    simp
  refine ⟨?_, ⟨[], fun _ => rfl, ?_⟩, ?_, fun _ _ => ?_, fun _ => ?_, ?_, fun hnot _ => ?_, fun hover => ?_⟩
  · have hnumbers := h.numbers
    rw [hrunning] at hnumbers
    simpa [hrunning] using hnumbers
  · rw [hposted.replies, h.answers hended, hrunning, List.zipIdx_append, List.map_append, hcall]
    simp
  · rw [hposted.replies, ← hranall, List.append_assoc]
    exact List.prefix_append _ _
  · rw [hposted.replies, hposted.serving, hposted.shared]
    exact hranall
  · rw [hposted.serving]
    rw [hrunning] at hlength ⊢
    exact Nat.succ.inj hlength
  · rw [hposted.shared]
    exact h.queued
  · rw [hposted.serving]
    by_contra hne
    exact hnot (if_neg hne)
  · dsimp only at hover
    split at hover <;> cases hover

/-- The thread outside of its critical sections, with nothing to run. -/
theorem Answered.posted (h : Answered m) (hstage : m.stage = .attending) {c : Ctx ω}
    (hposted : Posted m.ctx c) {stage : Stage} (hnot : stage ≠ .ended) :
    Answered { m with ctx := c, stage } := by
  have hended : m.stage ≠ .ended := by
    rw [hstage]
    nofun
  have hhangs : m.stage ≠ .stopped .hangs := by
    rw [hstage]
    nofun
  have hserving : m.ctx.serving = [] := h.idle (by rw [hstage]; nofun) hhangs
  have hrequests : c.shared.requests = m.ctx.shared.requests := by rw [hposted.shared]
  exact (h.stage hended hhangs hserving hnot).of hposted.replies hposted.serving hrequests rfl
    rfl rfl rfl rfl

/-- A closure or a method that never returns. -/
theorem Answered.hung (h : Answered m) (hended : m.stage ≠ .ended) {c : Ctx ω} {serving : List Request}
    (hposted : Posted { m.ctx with serving } c) :
    Answered { m with ctx := c, stage := .stopped .hangs } where
  numbers := h.numbers
  sent := ⟨[], fun _ => rfl, by rw [hposted.replies, List.map_nil, List.append_nil]; exact h.answers hended⟩
  ran := by
    rw [hposted.replies]
    exact h.ran
  waiting _ hhangs := absurd rfl hhangs
  running hhangs := absurd rfl hhangs
  queued := by
    rw [hposted.shared]
    exact h.queued
  idle _ hhangs := absurd rfl hhangs
  emptied := nofun

theorem answered_leave (h : Answered m) {error : Option Error} (hstage : m.stage = .leaving error) :
    Answered (m.leave error) := by
  have hended : m.stage ≠ .ended := by
    rw [hstage]
    nofun
  have hhangs : m.stage ≠ .stopped .hangs := by
    rw [hstage]
    nofun
  have hserving : m.ctx.serving = [] := h.idle (by rw [hstage]; nofun) hhangs
  have hrunning := h.running_nil hhangs hserving
  have hreplies : (m.leave error).ctx.replies = m.ctx.replies := by cases error <;> rfl
  have hserving' : (m.leave error).ctx.serving = [] := by cases error <;> exact hserving
  have hrequests : (m.leave error).ctx.shared.requests = [] := by cases error <;> rfl
  refine ⟨?_, ⟨m.queued, fun hover => absurd rfl hover, ?_⟩, ?_, fun hover => absurd rfl hover,
    fun _ => ?_, ?_, fun _ _ => hserving', fun _ => hrequests⟩
  · have hnumbers := h.numbers
    rw [hrunning, List.append_nil] at hnumbers
    simp only [leave, hrunning, List.append_nil, List.map_append, List.map_map]
    simpa [Function.comp_def] using hnumbers
  · rw [hreplies, ← h.answers hended]
    rfl
  · rw [hreplies]
    exact h.ran
  · rw [hserving']
    exact congrArg List.length hrunning
  · rw [hrequests]
    rfl

theorem answered_call (h : Answered m) (hfinished : m.ctx.shared.finished = true ↔ m.stage = .ended)
    (request : Request) : Answered (m.call request) := by
  unfold call Ctx.call
  split
  · exact h
  · next hopen =>
    refine ⟨?_, h.sent, ?_, fun hended hhangs => ?_, h.running, ?_, h.idle, fun hover => ?_⟩
    · change _ ++ (m.queued ++ [m.calls.length]) = List.range (m.calls ++ [request]).length
      rw [List.length_append, List.length_singleton, List.range_succ, ← h.numbers, ← List.append_assoc]
    · exact h.ran.trans (List.prefix_append _ _)
    · change _ ++ (m.ctx.shared.requests ++ [request]) = m.calls ++ [request]
      rw [← h.waiting hended hhangs, ← List.append_assoc]
    · change (m.queued ++ [m.calls.length]).length = (m.ctx.shared.requests ++ [request]).length
      rw [List.length_append, List.length_append, h.queued]
      rfl
    · rw [hfinished.mpr hover] at hopen
      exact absurd rfl hopen

theorem answered_take (h : Answered m) : Answered m.take := by
  unfold take
  split
  · exact h.of rfl rfl rfl rfl rfl rfl rfl rfl
  · exact h

variable [World ω]

theorem answered_turn (hlive : Live m) (h : Answered m) : Answered m.turn := by
  have hturn := turned hlive
  generalize m.turn = m' at hturn
  cases hturn with
  | enter hstage => exact answered_enter h hstage
  | idle hstage hserving => exact h.stage (by rw [hstage]; nofun) (by rw [hstage]; nofun) hserving nofun
  | served hstage hserving hposted _ => exact answered_served h hstage hserving hposted
  | attended hstage hposted _ => exact h.posted hstage hposted nofun
  | failed hstage hposted => exact h.posted hstage hposted nofun
  | hung hstage hposted =>
    refine h.hung ?_ hposted
    rcases hstage with hstage | hstage <;> rw [hstage] <;> nofun
  | leave hstage => exact answered_leave h hstage
  | gone _ => exact h

theorem answered_step (input : Input) (hlive : Live m) (hdelivered : Delivered m) (h : Answered m) :
    Answered (m.step input) := by
  cases input with
  | turn => exact answered_turn hlive h
  | take => exact answered_take h
  | setTargetPins config =>
    unfold step
    dsimp only
    split
    · exact h
    · exact answered_call h hdelivered.finished _
  | setOutputs levels => exact answered_call h hdelivered.finished _
  | close => exact h.of rfl rfl rfl rfl rfl rfl rfl rfl

end Answered

/-! ### Runs -/

section Runs
variable [World ω]

/-- The invariants of the mailbox. -/
structure Kept (m : Mailbox ω) : Prop where
  live : Live m
  delivered : Delivered m
  answered : Answered m

theorem kept_step (m : Mailbox ω) (input : Input) (h : Kept m) : Kept (m.step input) :=
  ⟨live_step m input h.live, delivered_step input h.live h.delivered,
    answered_step input h.live h.delivered h.answered⟩

theorem kept_start (o : WatchOptions) (w : ω) : Kept (start o w) where
  live := ⟨fun _ => (Watcher.lives_start o w).sound rfl, nofun⟩
  delivered := ⟨fun _ => rfl, fun _ => Nat.zero_le _, fun _ => rfl, iff_of_false nofun nofun,
    nofun, nofun, nofun⟩
  answered :=
    { numbers := rfl
      sent := ⟨[], fun _ => rfl, rfl⟩
      ran := List.prefix_rfl
      waiting _ _ := rfl
      running _ := rfl
      queued := rfl
      idle _ _ := rfl
      emptied := nofun }

theorem kept_run (o : WatchOptions) (w : ω) (inputs : List Input) : Kept (Lib.run step (start o w) inputs) :=
  Lib.run_preserves kept_step inputs (kept_start o w)

end Runs

theorem told_look (m : Mailbox ω) (h : m.taken ++ m.ctx.shared.out = m.told)
    (hfinished : m.ctx.shared.finished = true) :
    m.look = (m.told[m.taken.length]?).elim (.error .watcherClosed) fun event => .ok (some event) := by
  rw [← h, List.getElem?_append_right le_rfl, Nat.sub_self]
  unfold look
  split
  · next hout =>
    rw [hout]
    rfl
  · next hout =>
    rw [if_pos hfinished, hout]
    rfl

theorem closed_look (m : Mailbox ω) :
    m.look = .error .watcherClosed ↔ m.ctx.shared.finished = true ∧ m.ctx.shared.out = [] := by
  unfold look
  split
  · next hout => simp [hout]
  · next hout => simp [hout]

/-- The mailbox emptied by taking. -/
theorem run_take [World ω] (m : Mailbox ω) (n : ℕ) (hn : n = m.ctx.shared.out.length) :
    let drained := Lib.run step m (List.replicate n .take)
    drained.taken = m.taken ++ m.ctx.shared.out ∧ drained.ctx.shared.out = [] ∧
      drained.ctx.shared.finished = m.ctx.shared.finished := by
  induction n generalizing m with
  | zero =>
    have hout : m.ctx.shared.out = [] := List.eq_nil_of_length_eq_zero hn.symm
    exact ⟨by rw [hout, List.append_nil]; rfl, hout, rfl⟩
  | succ n ih =>
    obtain ⟨event, out, hout⟩ := List.exists_cons_of_length_eq_add_one hn.symm
    have htake : m.take =
        { m with
          ctx := { m.ctx with shared := { m.ctx.shared with out } }, taken := m.taken ++ [event] } := by
      unfold take
      split
      · next hcons =>
        obtain ⟨rfl, rfl⟩ := List.cons.inj (hout.symm.trans hcons)
        rfl
      · next hnil => cases hout.symm.trans hnil
    have hrest := ih m.take (by rw [htake]; rw [hout] at hn; exact Nat.succ.inj hn)
    rw [htake] at hrest
    rw [List.replicate_succ, Lib.run_cons]
    refine ⟨?_, ?_, ?_⟩
    · change (Lib.run step m.take _).taken = _
      rw [htake, hrest.1, hout, List.append_assoc, List.singleton_append]
    · change (Lib.run step m.take _).ctx.shared.out = _
      rw [htake]
      exact hrest.2.1
    · change (Lib.run step m.take _).ctx.shared.finished = _
      rw [htake]
      exact hrest.2.2

namespace Answered
variable {call : ℕ}

/-- Calls are answered from the first on. -/
theorem answered_range (h : Answered m) : m.answers.map Prod.fst = List.range m.answers.length := by
  have htaken := congrArg (List.take m.answers.length) h.numbers
  rw [List.append_assoc, List.take_left' (List.length_map _), List.take_range] at htaken
  have hle : m.answers.length ≤ m.calls.length := by
    have := congrArg List.length h.numbers
    simp only [List.length_append, List.length_map, List.length_range] at this
    omega
  rw [htaken, min_eq_left hle]

theorem nodup (h : Answered m) : (m.answers.map Prod.fst).Nodup := by
  rw [h.answered_range]
  exact List.nodup_range

/-- A result is that of the closure of the call. -/
theorem of_sent (h : Answered m) {result : Except Error Unit}
    (hmem : (call, CallAnswer.sent result) ∈ m.answers) :
    ∃ request, m.calls[call]? = some request ∧ m.ctx.replies[call]? = some (request, result) := by
  obtain ⟨dropped, -, hanswers⟩ := h.sent
  rw [hanswers, List.mem_append, List.mem_map, List.mem_map] at hmem
  rcases hmem with ⟨⟨⟨request, reply⟩, i⟩, hi, heq⟩ | ⟨i, -, heq⟩
  · obtain ⟨rfl, hsent⟩ := Prod.mk.inj heq
    obtain rfl := CallAnswer.sent.inj hsent
    have hreply : m.ctx.replies[i]? = some (request, reply) := List.mem_zipIdx_iff_getElem?.mp hi
    refine ⟨request, ?_, hreply⟩
    obtain ⟨rest, hrest⟩ := h.ran
    have hrequest : (m.ctx.replies.map Prod.fst)[i]? = some request := by rw [List.getElem?_map, hreply]; rfl
    rw [← hrest, List.getElem?_append_left (List.getElem?_eq_some_iff.mp hrequest).1, hrequest]
  · cases heq

/-- A call whose closure was dropped is none of those whose closures ran. -/
theorem of_closed (h : Answered m) (hmem : (call, CallAnswer.closed) ∈ m.answers) :
    m.ctx.replies.length ≤ call ∧ call < m.calls.length := by
  obtain ⟨dropped, -, hanswers⟩ := h.sent
  have hnodup := h.nodup
  have hlt : call ∈ List.range m.calls.length := by
    rw [← h.numbers, List.append_assoc]
    exact List.mem_append_left _ (List.mem_map_of_mem hmem)
  have hfst : m.answers.map Prod.fst = List.range m.ctx.replies.length ++ dropped := by
    rw [hanswers, List.map_append, List.map_map, List.map_map, List.range_eq_range', ← List.zipIdx_map_snd 0]
    simp [Function.comp_def]
  have hdropped : call ∈ dropped := by
    rw [hanswers, List.mem_append, List.mem_map, List.mem_map] at hmem
    rcases hmem with ⟨x, -, heq⟩ | ⟨i, hi, heq⟩
    · cases heq
    · rwa [← (Prod.mk.inj heq).1]
  refine ⟨?_, List.mem_range.mp hlt⟩
  by_contra hlow
  rw [hfst] at hnodup
  exact (List.disjoint_of_nodup_append hnodup) (List.mem_range.mpr (Nat.lt_of_not_ge hlow)) hdropped

/-- The end answers the calls that are left. -/
theorem all (h : Answered m) (hended : m.stage = .ended) (hcall : call < m.calls.length) :
    ∃ answer, (call, answer) ∈ m.answers := by
  have hrunning : m.running = [] :=
    h.running_nil (by rw [hended]; nofun) (h.idle (by rw [hended]; nofun) (by rw [hended]; nofun))
  have hqueued : m.queued = [] := List.eq_nil_of_length_eq_zero (by rw [h.queued, h.emptied hended]; rfl)
  have hnumbers := h.numbers
  rw [hrunning, hqueued, List.append_nil, List.append_nil] at hnumbers
  have hmem : call ∈ m.answers.map Prod.fst := by
    rw [hnumbers]
    exact List.mem_range.mpr hcall
  obtain ⟨⟨_, answer⟩, hanswer, rfl⟩ := List.mem_map.mp hmem
  exact ⟨answer, hanswer⟩

end Answered

section Mailbox
variable [World ω]

/-- The end of the thread may put more than the capacity into the mailbox, nothing else does. -/
theorem out_le (h : Kept m) (input : Input) :
    (m.step input).ctx.shared.out.length ≤ m.ctx.shared.out.length ∨
    (m.step input).ctx.shared.out.length ≤ outCapacity ∨ (m.step input).ctx.shared.finished = true := by
  have hnext := kept_step m input h
  by_cases hended : (m.step input).stage = .ended
  · exact .inr (.inr (hnext.delivered.finished.mpr hended))
  · exact .inr (.inl (hnext.delivered.room hended))

end Mailbox

/-! ### A close after the end -/

/-- A bus that cannot be listed at first and then has two boards, and a clock that goes on. -/
structure Bench where
  now : ℕ

instance : World Bench where
  devices b := (if b.now < 6 then .error (.os ⟨"input/output error", false⟩)
    else .ok [⟨"/dev/hidraw0", "E6614103E7", "hidpin", "hidpin"⟩,
      ⟨"/dev/hidraw1", "E6614103E8", "hidpin", "hidpin"⟩], b)
  openDevice _ b := (.ok (), b)
  read _ b := (.ok [], b)
  write _ b := (.ok (), b)
  getFeatureReport _ b := (.ok [], b)
  sendFeatureReport _ b := (.ok (), b)
  getInputReport _ b := (.ok [], b)
  instant b := (b.now, ⟨b.now + 1⟩)
  systemTime b := (b.now, b)
  seed b := ((0, 0), b)

end Mailbox

end Hidpin.Host
