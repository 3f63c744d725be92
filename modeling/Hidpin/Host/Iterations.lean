import Hidpin.Host.Mailbox

/-! A watcher whose iterations are single steps is a watcher with a mailbox: for each of its steps the thread
    of the mailbox takes some turns, and both are in the same state again. -/

namespace Hidpin.Host
open Lib
variable {ω : Type}

/-- The watch thread in an iteration that runs a closure. -/
theorem Watch.exec_iterate_cons [World ω] {c : Ctx ω} {request : Request} {rest : List Request}
    (hserving : c.serving = request :: rest) :
    Watch.iterate.exec c = match (Watch.serve request).exec { c with serving := rest } with
      | (.ok (), c') => (.ok true, c')
      | (.error stop, c') => (.error stop, c') := by
  rw [Watch.iterate, Prog.exec_bind]
  simp only [Prog.exec_gets, hserving]
  simp only [Prog.exec_bind, Prog.exec_update]
  rcases (Watch.serve request).exec { c with serving := rest } with ⟨_ | _, c'⟩ <;> rfl

/-- The watch thread in an iteration that comes to its critical section. -/
theorem Watch.exec_iterate_nil [World ω] {c : Ctx ω} (hserving : c.serving = []) :
    Watch.iterate.exec c =
      let d := (Watch.deliver.exec c).2
      let t := (Watch.takeRequests.exec d).2
      if d.shared.stopping then (.ok false, d)
      else if t.serving ≠ [] then (.ok true, t)
      else match Watch.attend.exec t with
        | (.ok (), c') => (.ok true, c')
        | (.error stop, c') => (.error stop, c') := by
  obtain ⟨d, hd⟩ : ∃ d, Watch.deliver.exec c = (.ok (), d) := ⟨_, rfl⟩
  obtain ⟨t, ht⟩ : ∃ t, Watch.takeRequests.exec d = (.ok (), t) := ⟨_, rfl⟩
  rw [Watch.iterate, Prog.exec_bind]
  simp only [Prog.exec_gets, hserving]
  simp only [Prog.exec_bind, hd, Prog.exec_gets]
  by_cases hstop : d.shared.stopping
  · rw [if_pos hstop, if_pos hstop]
    rfl
  · rw [if_neg hstop, if_neg hstop]
    simp only [Prog.exec_bind, ht, Prog.exec_gets]
    by_cases hmore : t.serving ≠ []
    · rw [if_pos hmore, if_pos hmore]
      rfl
    · rw [if_neg hmore, if_neg hmore]
      simp only [Prog.exec_bind]
      rcases Watch.attend.exec t with ⟨_ | _, c'⟩ <;> rfl

namespace Mailbox
variable [World ω]

/-- A watcher whose iterations are single steps, and the mailbox between two of them. -/
structure Simulates (w : Watcher ω) (m : Mailbox ω) : Prop where
  kept : Kept m
  ctx : m.ctx = w.ctx
  ready : w.alive = true → w.ctx.serving = [] → m.stage = .ready
  serving : w.alive = true → w.ctx.serving ≠ [] → m.stage = .serving
  gone : w.alive = false → m.stage = .ended ∨ m.stage = .stopped .hangs

theorem simulates_serve {w : Watcher ω} {m : Mailbox ω} (h : Simulates w m) (halive : w.alive = true)
    {request : Request} {rest : List Request} (hserving : w.ctx.serving = request :: rest) :
    Simulates w.turn m.turn := by
  have hstage := h.serving halive (by rw [hserving]; nofun)
  have hkept := kept_step m .turn h.kept
  have hposted := serve_posted request { w.ctx with serving := rest }
  have hmserving : m.ctx.serving = request :: rest := by rw [h.ctx, hserving]
  have hturn : m.turn = m.serve request rest := by
    unfold turn
    rw [hstage, hmserving]
  change Kept m.turn at hkept
  rw [hturn] at hkept ⊢
  rcases hexec : (Watch.serve request).exec { w.ctx with serving := rest } with ⟨stop | _, c⟩
  · rw [Prog.wp_of_exec hexec] at hposted
    have hw : w.turn.ctx = c ∧ w.turn.alive = false := by
      rw [Watcher.turn, if_pos halive, Watch.exec_iterate_cons hserving, hexec]
      obtain ⟨hfatal, -, -⟩ := hposted
      cases stop with
      | fatal e => cases hfatal
      | error e => exact ⟨rfl, rfl⟩
      | panicked => exact ⟨rfl, rfl⟩
      | hangs => exact ⟨rfl, rfl⟩
    have hm : (m.serve request rest).ctx = c ∧ (m.serve request rest).stage = .stopped stop := by
      rw [← h.ctx] at hexec
      rw [serve, hexec]
      exact ⟨rfl, rfl⟩
    have hhangs := hkept.live.stopped _ hm.2
    refine ⟨hkept, hm.1.trans hw.1.symm, ?_, ?_, fun _ => .inr (by rw [hm.2, hhangs])⟩
    · rw [hw.2]
      nofun
    · rw [hw.2]
      nofun
  · rw [Prog.wp_of_exec hexec] at hposted
    obtain ⟨reply, hposted⟩ := hposted
    have hw : w.turn = { ctx := c, alive := true } := by
      rw [Watcher.turn, if_pos halive, Watch.exec_iterate_cons hserving, hexec]
    have hm : (m.serve request rest).ctx = c ∧
        (m.serve request rest).stage = if rest = [] then .ready else .serving := by
      rw [← h.ctx] at hexec
      rw [serve, hexec]
      exact ⟨rfl, rfl⟩
    rw [hw]
    refine ⟨hkept, hm.1, fun _ hnil => ?_, fun _ hne => ?_, nofun⟩
    · exact hm.2.trans (if_pos (hposted.serving.symm.trans hnil))
    · exact hm.2.trans (if_neg fun hrest => hne (hposted.serving.trans hrest))

/-- A turn that attends to the device, from the end of its critical section. -/
theorem simulates_attend {w : Watcher ω} {m : Mailbox ω} (hkept : Kept m) (hstage : m.stage = .attending)
    (halive : w.alive = true) (hserving : m.ctx.serving = [])
    (hiterate : Watch.iterate.exec w.ctx = match Watch.attend.exec m.ctx with
      | (.ok (), c) => (.ok true, c)
      | (.error stop, c) => (.error stop, c)) :
    ∃ n, Simulates w.turn (Lib.run step m (List.replicate n .turn)) := by
  have hnext := kept_step m .turn hkept
  have hturn : m.step .turn = m.attend := by
    change m.turn = _
    unfold turn
    rw [hstage]
  have hposted := (Posting.attend (ω := ω)).keeps m.ctx m.ctx (.refl _)
  rcases hexec : Watch.attend.exec m.ctx with ⟨stop | _, c⟩
  · rw [hexec] at hiterate
    rw [hturn, attend, hexec] at hnext
    cases stop with
    | fatal error =>
      have hw : w.turn = { ctx := c.finish (some error), alive := false } := by
        rw [Watcher.turn, if_pos halive, hiterate]
      refine ⟨2, ?_⟩
      change Simulates _ ((m.step .turn).step .turn)
      rw [hturn, attend, hexec, hw]
      exact ⟨kept_step _ .turn hnext, rfl, nofun, nofun, fun _ => .inl rfl⟩
    | error e => cases hnext.live.stopped _ rfl
    | panicked => cases hnext.live.stopped _ rfl
    | hangs =>
      have hw : w.turn = { ctx := c, alive := false } := by rw [Watcher.turn, if_pos halive, hiterate]
      refine ⟨1, ?_⟩
      change Simulates _ (m.step .turn)
      rw [hturn, attend, hexec, hw]
      exact ⟨hnext, rfl, nofun, nofun, fun _ => .inr rfl⟩
  · rw [hexec] at hiterate hposted
    rw [hturn, attend, hexec] at hnext
    have hw : w.turn = { ctx := c, alive := true } := by rw [Watcher.turn, if_pos halive, hiterate]
    refine ⟨1, ?_⟩
    change Simulates _ (m.step .turn)
    rw [hturn, attend, hexec, hw]
    exact ⟨hnext, rfl, fun _ _ => rfl, fun _ hne => absurd (hposted.serving.trans hserving) hne, nofun⟩

theorem simulates_ready {w : Watcher ω} {m : Mailbox ω} (h : Simulates w m) (halive : w.alive = true)
    (hserving : w.ctx.serving = []) : ∃ n, Simulates w.turn (Lib.run step m (List.replicate n .turn)) := by
  have hstage := h.ready halive hserving
  obtain ⟨d, hd⟩ : ∃ d, Watch.deliver.exec w.ctx = (.ok (), d) := ⟨_, rfl⟩
  obtain ⟨t, ht⟩ : ∃ t, Watch.takeRequests.exec d = (.ok (), t) := ⟨_, rfl⟩
  have hiterate := Watch.exec_iterate_nil hserving
  have hkept := kept_step m .turn h.kept
  have hturn : m.step .turn = m.enter := by
    change m.turn = _
    unfold turn
    rw [hstage]
  have henter : m.enter = if d.shared.stopping then { m with ctx := d, stage := .leaving none }
      else { m with
        ctx := t, queued := [], running := m.queued,
        stage := if t.serving = [] then .attending else .serving } := by
    unfold enter
    rw [h.ctx, hd]
    dsimp only
    rw [ht]
  rw [hturn, henter] at hkept
  simp only [hd, ht] at hiterate
  by_cases hstop : d.shared.stopping
  · rw [if_pos hstop] at hiterate henter hkept
    have hw : w.turn = { ctx := d.finish none, alive := false } := by
      rw [Watcher.turn, if_pos halive, hiterate]
    refine ⟨2, ?_⟩
    change Simulates _ ((m.step .turn).step .turn)
    rw [hturn, henter, hw]
    exact ⟨kept_step _ .turn hkept, rfl, nofun, nofun, fun _ => .inl rfl⟩
  · rw [if_neg hstop] at hiterate henter hkept
    by_cases hmore : t.serving ≠ []
    · rw [if_pos hmore] at hiterate
      have hw : w.turn = { ctx := t, alive := true } := by rw [Watcher.turn, if_pos halive, hiterate]
      refine ⟨1, ?_⟩
      change Simulates _ (m.step .turn)
      rw [hturn, henter, hw]
      exact ⟨hkept, rfl, fun _ hnil => absurd hnil hmore, fun _ _ => if_neg hmore, nofun⟩
    · rw [if_neg hmore] at hiterate
      rw [not_not] at hmore
      obtain ⟨n, hn⟩ := simulates_attend hkept (if_pos hmore) halive hmore hiterate
      refine ⟨n + 1, ?_⟩
      rw [List.replicate_succ, Lib.run_cons, hturn, henter]
      exact hn

omit [World ω] in
theorem ctx_call (m : Mailbox ω) (request : Request) : (m.call request).ctx = m.ctx.call request := by
  unfold call Ctx.call
  split <;> rfl

omit [World ω] in
theorem stage_call (m : Mailbox ω) (request : Request) : (m.call request).stage = m.stage := by
  unfold call
  split <;> rfl

omit [World ω] in
theorem stage_take (m : Mailbox ω) : m.take.stage = m.stage := by
  unfold take
  split <;> rfl

omit [World ω] in
theorem ctx_take (m : Mailbox ω) :
    m.take.ctx = { m.ctx with shared := { m.ctx.shared with out := m.ctx.shared.out.tail } } := by
  unfold take
  split
  · next hout => rw [hout]; rfl
  · next hout =>
    rw [hout, List.tail_nil, ← hout]

theorem simulates_step {w : Watcher ω} {m : Mailbox ω} (h : Simulates w m) (input : Input) :
    ∃ inputs, Simulates (w.step input) (Lib.run step m inputs) := by
  have hcall (request : Request) : Simulates { w with ctx := w.ctx.call request } (m.call request) := by
    have hserving : (w.ctx.call request).serving = w.ctx.serving := by
      unfold Ctx.call
      split <;> rfl
    refine ⟨⟨live_call h.kept.live request, delivered_call h.kept.delivered request,
      answered_call h.kept.answered h.kept.delivered.finished request⟩, ?_, ?_, ?_, ?_⟩
    · rw [ctx_call, h.ctx]
    · rw [hserving, stage_call]
      exact h.ready
    · rw [hserving, stage_call]
      exact h.serving
    · rw [stage_call]
      exact h.gone
  cases input with
  | turn =>
    by_cases halive : w.alive = true
    · rcases hserving : w.ctx.serving with _ | ⟨request, rest⟩
      · obtain ⟨n, hn⟩ := simulates_ready h halive hserving
        exact ⟨_, hn⟩
      · exact ⟨[.turn], simulates_serve h halive hserving⟩
    · refine ⟨[], ?_⟩
      change Simulates w.turn m
      rw [Watcher.turn, if_neg halive]
      exact h
  | take =>
    refine ⟨[.take], kept_step m .take h.kept, (ctx_take m).trans (by rw [h.ctx]; rfl), ?_, ?_, ?_⟩
    · exact fun halive hserving => (stage_take m).trans (h.ready halive hserving)
    · exact fun halive hserving => (stage_take m).trans (h.serving halive hserving)
    · exact fun hgone => by
        change m.take.stage = _ ∨ m.take.stage = _
        rw [stage_take]
        exact h.gone hgone
  | setTargetPins config =>
    refine ⟨[.setTargetPins config], ?_⟩
    change Simulates (if _ then w else _) (if _ then m else _)
    split
    · exact h
    · exact hcall _
  | setOutputs levels => exact ⟨[.setOutputs levels], hcall _⟩
  | close =>
    refine ⟨[.close], kept_step m .close h.kept, ?_, h.ready, h.serving, h.gone⟩
    exact congrArg (fun c : Ctx ω => { c with shared := { c.shared with stopping := true } }) h.ctx

/-- The mailbox is in every state that a watcher gets into. -/
theorem simulates (o : WatchOptions) (w : ω) (inputs : List Input) :
    ∃ steps, Simulates (Lib.run Watcher.step (Watcher.start o w) inputs)
      (Lib.run step (start o w) steps) := by
  have hstart : Simulates (Watcher.start o w) (start o w) :=
    ⟨kept_start o w, rfl, fun _ _ => rfl, nofun, nofun⟩
  induction inputs using List.reverseRecOn with
  | nil => exact ⟨[], hstart⟩
  | append_singleton inputs input ih =>
    obtain ⟨steps, h⟩ := ih
    obtain ⟨more, hmore⟩ := simulates_step h input
    refine ⟨steps ++ more, ?_⟩
    rw [Lib.run_append, Lib.run_append]
    exact hmore

end Mailbox

end Hidpin.Host
