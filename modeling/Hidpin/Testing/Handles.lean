import Hidpin.Lib.Run
import Hidpin.Testing.Board

/-! What a program hears through a handle of the simulated board: the reports the board sent since the handle
    was opened, in their order and none twice, but for those that are counted as dropped. -/

namespace Hidpin.Testing
open Host (StatusReport Gpio)

/-- A report as a handle gets it. -/
def wire (r : StatusReport) : List U8 := Host.reportIdStatus :: payload r

/-- What was read from a handle and what waits in it, and the reports `sent` after the first ones `old`. -/
structure Hears (old sent : List StatusReport) (q : HandleQueue) : Prop where
  began : old <+: sent
  inOrder : (q.taken ++ q.reports).Sublist ((sent.drop old.length).map wire)
  counted : (q.taken ++ q.reports).length + q.dropped + old.length = sent.length
  bounded : q.reports.length ≤ queueLen

namespace Hears
variable {old sent : List StatusReport} {q : HandleQueue}

theorem start (sent : List StatusReport) : Hears sent sent .new where
  began := List.prefix_rfl
  inOrder := List.nil_sublist _
  counted := Nat.zero_add _
  bounded := Nat.zero_le _

/-- Without a dropped report a handle hears everything. -/
theorem all (h : Hears old sent q) (hdropped : q.dropped = 0) :
    q.taken ++ q.reports = (sent.drop old.length).map wire := by
  refine h.inOrder.eq_of_length ?_
  have hcounted := h.counted
  rw [List.length_map, List.length_drop]
  omega

/-- Reports that the handle does not get. -/
theorem miss (h : Hears old sent q) (missed : List StatusReport) :
    Hears old (sent ++ missed) { q with dropped := q.dropped + missed.length } where
  began := h.began.trans (List.prefix_append _ _)
  inOrder := by
    rw [List.drop_append_of_le_length h.began.length_le, List.map_append]
    exact h.inOrder.trans (List.sublist_append_left _ _)
  counted := by
    have hcounted := h.counted
    change (q.taken ++ q.reports).length + (q.dropped + missed.length) + old.length = (sent ++ missed).length
    have hlen : (sent ++ missed).length = sent.length + missed.length := List.length_append
    omega
  bounded := h.bounded

theorem push (h : Hears old sent q) (r : StatusReport) : Hears old (sent ++ [r]) (q.push (wire r)) := by
  rw [HandleQueue.push]
  split_ifs with hroom
  · refine
      { began := h.began.trans (List.prefix_append _ _)
        inOrder := ?_
        counted := ?_
        bounded := by rw [List.length_append]; exact hroom }
    · rw [List.drop_append_of_le_length h.began.length_le, List.map_append, ← List.append_assoc]
      exact h.inOrder.append_right [wire r]
    · have hcounted := h.counted
      simp only [List.length_append, List.length_singleton] at hcounted ⊢
      omega
  · exact h.miss [r]

/-- Taking the first report leaves the others. -/
theorem read (h : Hears old sent q) {r : List U8} {reports : List (List U8)}
    (hq : q.reports = r :: reports) : Hears old sent { q with reports, taken := q.taken ++ [r] } := by
  have hsame : q.taken ++ [r] ++ reports = q.taken ++ q.reports := by
    rw [hq, List.append_assoc, List.singleton_append]
  have hbounded := h.bounded
  rw [hq] at hbounded
  exact
    { began := h.began
      inOrder := by rw [hsame]; exact h.inOrder
      counted := by rw [hsame]; exact h.counted
      bounded := (Nat.le_succ _).trans hbounded }

end Hears

/-! ### Acts -/

/-- The handle is known, and while it is open it hears the reports. -/
def Listens (old : List StatusReport) (h : ℕ) (s : BoardState) : Prop :=
  h < s.opened ∧ (h ∈ s.handles → s.powered = true ∧ Hears old s.sent (s.queues h))

namespace Listens
variable {old : List StatusReport} {h : ℕ} {s : BoardState}

/-- Nothing about the handle changes. -/
theorem congr (hl : Listens old h s) {s' : BoardState} (hopened : s'.opened = s.opened)
    (hhandles : s'.handles = s.handles) (hpowered : s'.powered = s.powered) (hsent : s'.sent = s.sent)
    (hqueue : s'.queues h = s.queues h) : Listens old h s' := by
  rw [Listens, hopened, hhandles, hpowered, hsent, hqueue]
  exact hl

/-- A handle that is not open any more. -/
theorem closed (hl : Listens old h s) {s' : BoardState} (hopened : s'.opened = s.opened)
    (hhandles : h ∉ s'.handles) : Listens old h s' :=
  ⟨hopened ▸ hl.1, fun hopen => absurd hopen hhandles⟩

theorem send (hl : Listens old h s) (reason : U8) (events : List Host.EdgeEvent) :
    Listens old h (s.send reason events) := by
  refine ⟨hl.1, fun hopen => ?_⟩
  obtain ⟨hpowered, hhears⟩ := hl.2 hopen
  have hqueue : (s.send reason events).queues h =
      (s.queues h).push (wire ({ s with clockUs := s.clockUs + 1000 }.status
        reason events s.nextSeq (if s.overflow then Host.StatusFlags.overflow else 0))) := if_pos hopen
  rw [hqueue]
  exact ⟨hpowered, hhears.push _⟩

theorem writeConfig (hl : Listens old h s) (p : List U8) : Listens old h (s.writeConfig p) := by
  rw [BoardState.writeConfig]
  rcases Host.validatePinConfigPayload p s.info.available with ⟨result, resultGpio, requestId⟩
  dsimp only
  split_ifs with hresult
  · exact hl
  · cases Host.decodePinConfig p with
    | error e => exact hl
    | ok report =>
      dsimp only
      split_ifs
      · exact hl
      · refine send ?_ _ _
        exact hl.congr rfl rfl rfl rfl rfl

theorem skipReports (hl : Listens old h s) (n : U16) : Listens old h (s.skipReports n) := by
  refine ⟨hl.1, fun hopen => ?_⟩
  obtain ⟨hpowered, hhears⟩ := hl.2 hopen
  have hqueue : (s.skipReports n).queues h = { s.queues h with dropped := (s.queues h).dropped + n.toNat } :=
    if_pos hopen
  have hmissed := hhears.miss ((List.range n.toNat).map s.skipped)
  rw [List.length_map, List.length_range] at hmissed
  rw [hqueue]
  exact ⟨hpowered, hmissed⟩

theorem openHandle (hl : Listens old h s) : Listens old h s.openHandle.2 := by
  rw [BoardState.openHandle]
  cases s.openError with
  | some e => exact hl
  | none =>
    have hother : h ≠ s.opened := hl.1.ne
    have hqueue : Function.update s.queues s.opened .new h = s.queues h := Function.update_of_ne hother _ _
    refine ⟨hl.1.trans (Nat.lt_succ_self _), fun hopen => ?_⟩
    obtain ⟨hpowered, hhears⟩ := hl.2 (by simpa [hother] using hopen)
    rw [← hqueue] at hhears
    exact ⟨hpowered, hhears⟩

theorem read (hl : Listens old h s) (g len : ℕ) : Listens old h (s.read g len).2 := by
  rw [BoardState.read]
  split
  · exact hl
  · split
    case h_1 => exact hl
    case h_2 report reports hreports =>
      refine ⟨hl.1, fun hopen => ?_⟩
      obtain ⟨hpowered, hhears⟩ := hl.2 hopen
      dsimp only
      by_cases hg : h = g
      · subst hg
        rw [Function.update_self]
        exact ⟨hpowered, hhears.read hreports⟩
      · rw [Function.update_of_ne hg]
        exact ⟨hpowered, hhears⟩

/-- Every act keeps what the open handles hear. -/
theorem step (hl : Listens old h s) (act : Act) : Listens old h (s.step act) := by
  cases act with
  | plug path =>
    rw [BoardState.step, BoardState.plug]
    split_ifs with hpowered
    · exact hl.congr rfl rfl rfl rfl rfl
    · exact hl.closed rfl fun hopen => hpowered (hl.2 hopen).1
  | unplug => exact hl.closed rfl List.not_mem_nil
  | setOpenError e => exact hl.congr rfl rfl rfl rfl rfl
  | setProtocolVersion version => exact hl.congr rfl rfl rfl rfl rfl
  | setInput n high =>
    rw [BoardState.step, BoardState.setInput]
    split_ifs
    · exact hl.congr rfl rfl rfl rfl rfl
    · refine send ?_ _ _
      exact hl.congr rfl rfl rfl rfl rfl
  | loseInput n high =>
    rw [BoardState.step, BoardState.loseInput]
    split_ifs
    · exact hl.congr rfl rfl rfl rfl rfl
    · exact hl.congr rfl rfl rfl rfl rfl
  | periodic => exact hl.send _ _
  | skipReports n => exact hl.skipReports n
  | suspend =>
    rw [BoardState.step, BoardState.suspend, BoardState.resetOutputs]
    dsimp only
    split_ifs
    · refine send ?_ _ _
      exact hl.congr rfl rfl rfl rfl rfl
    · exact hl.congr rfl rfl rfl rfl rfl
  | reenumerate => exact hl.closed rfl List.not_mem_nil
  | writePinConfig config => exact hl.writeConfig _
  | openHandle =>
    rw [BoardState.step]
    split_ifs
    · exact hl.openHandle
    · exact hl
  | read g len => exact hl.read g len
  | write g report =>
    rw [BoardState.step, BoardState.write]
    split
    · exact hl
    · split_ifs
      · exact hl
      · split
        · exact hl
        · refine send ?_ _ _
          exact hl.congr rfl rfl rfl rfl rfl
  | getFeatureReport g reportId len => exact hl
  | sendFeatureReport g report =>
    rw [BoardState.step, BoardState.sendFeatureReport]
    split
    · exact hl
    · split_ifs
      · exact hl
      · exact hl.writeConfig report.tail
  | getInputReport g len => exact hl
  | dropHandle g =>
    by_cases hg : h = g
    · exact hl.closed rfl (by simp [BoardState.step, BoardState.dropHandle, hg])
    · have hqueue : (s.dropHandle g).queues h = s.queues h := Function.update_of_ne hg _ _
      refine ⟨hl.1, fun hopen => ?_⟩
      rw [BoardState.step, hqueue]
      exact hl.2 (List.mem_of_mem_filter hopen)

end Listens

/-- While a handle is open, what was read from it and what waits in it are the reports since it was opened,
    in their order and none twice; those that are missing are counted as dropped. -/
theorem handle_hears (s : BoardState) (acts : List Act) (hpowered : s.powered = true)
    (hworks : s.openError = none)
    (hopen : s.opened ∈ (Lib.run BoardState.step s (.openHandle :: acts)).handles) :
    Hears s.sent (Lib.run BoardState.step s (.openHandle :: acts)).sent
      ((Lib.run BoardState.step s (.openHandle :: acts)).queues s.opened) := by
  have hfirst : s.step .openHandle = s.openHandle.2 := if_pos hpowered
  have hstart : Listens s.sent s.opened s.openHandle.2 := by
    have hqueue : Function.update s.queues s.opened HandleQueue.new s.opened = .new :=
      Function.update_self _ _ _
    rw [BoardState.openHandle, hworks]
    refine ⟨Nat.lt_succ_self _, fun _ => ⟨hpowered, ?_⟩⟩
    dsimp only
    rw [hqueue]
    exact Hears.start s.sent
  rw [Lib.run_cons, hfirst] at hopen ⊢
  exact ((Lib.run_preserves (P := Listens s.sent s.opened) (fun _ act h => h.step act) acts hstart).2
    hopen).2

/-- A board that was powered a while ago. -/
def poweredBoard : BoardState := Lib.run BoardState.step .new [.plug "/dev/hidraw0", .periodic]

/-- A program opens it, reads one of two reports and leaves the other. -/
def listening (n : Gpio) : List Act := [.setInput n false, .read 0 64, .suspend, .periodic]

theorem handle_hears_run :
    ((Lib.run BoardState.step poweredBoard (.openHandle :: listening 0)).queues 0).taken ++
        ((Lib.run BoardState.step poweredBoard (.openHandle :: listening 0)).queues 0).reports =
      ((Lib.run BoardState.step poweredBoard (.openHandle :: listening 0)).sent.drop 1).map wire ∧
    ((Lib.run BoardState.step poweredBoard (.openHandle :: listening 0)).queues 0).reports.length = 1 := by
  have h := handle_hears poweredBoard (listening 0) (by decide +kernel) rfl (by decide +kernel)
  exact ⟨h.all (by decide +kernel), by decide +kernel⟩

end Hidpin.Testing
