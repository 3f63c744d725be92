import Hidpin.Host.CatchUp
import Hidpin.Host.LifeCycle

/-! What a watcher without a target makes of a report: it notes it, and unless the report is stale it takes
    its levels. -/

namespace Hidpin.Host
open Lib

namespace WatchLoop
variable {l l' : WatchLoop}

/-- The changes that reports tell to a loop that takes its first levels from the first of them. -/
def storyOf (l : WatchLoop) : List StatusReport → List OnOffChange
  | [] => []
  | r :: reports => l.story r reports

theorem isActiveLow_congr (hlow : l.activeLow = l'.activeLow) (hconfig : l.config = l'.config) :
    l.isActiveLow = l'.isActiveLow := by
  funext gpio
  rw [isActiveLow_eq, isActiveLow_eq, hlow, hconfig]

theorem news_congr (h : l.isActiveLow = l'.isActiveLow) : l.news = l'.news := by
  funext r r'
  rw [news, news]
  congr 1
  funext event
  rw [change, change, h]

theorem story_congr (h : l.isActiveLow = l'.isActiveLow) :
    ∀ (r : StatusReport) (reports : List StatusReport), l.story r reports = l'.story r reports
  | _, [] => rfl
  | r, r' :: reports => by rw [story, story, news_congr h, story_congr h r' reports]

theorem story_concat (l : WatchLoop) (r' : StatusReport) :
    ∀ (r : StatusReport) (reports : List StatusReport),
      l.story r (reports ++ [r']) = l.story r reports ++ l.news (reports.getLastD r) r'
  | _, [] => by simp [story]
  | r, s :: reports => by
    rw [List.cons_append, story, story, story_concat l r' s reports, List.append_assoc,
      List.getLastD_cons]

/-- No change that reports tell is inferred. -/
theorem inferred_story (l : WatchLoop) : ∀ (r : StatusReport) (reports : List StatusReport),
    ∀ change ∈ l.story r reports, change.inferred = false
  | _, [], change, hmem => by cases hmem
  | r, r' :: reports, change, hmem => by
    rw [story, List.mem_append, news, List.mem_map] at hmem
    rcases hmem with ⟨event, -, rfl⟩ | hmem
    · rfl
    · exact inferred_story l r' reports change hmem

/-- A configuration that is taken over again changes nothing when only its inputs are known. -/
theorem setConfig_self (h : ∀ gpio, (l.known gpio).isSome = true → (l.config.get gpio).isMonitored = true) :
    l.setConfig l.config = l := by
  have hknown : (fun gpio => if (l.config.get gpio).isMonitored &&
      decide ((l.config.get gpio).mode = (l.config.get gpio).mode) then l.known gpio else none) =
      l.known := by
    funext gpio
    rw [decide_eq_true rfl, Bool.and_true]
    cases hknown : l.known gpio with
    | none => exact ite_self _
    | some on => exact if_pos (h gpio (by rw [hknown]; rfl))
  rw [setConfig, retain, hknown]

end WatchLoop

variable {ω : Type} [World ω] {b c : Ctx ω} {F : ω → Prop} {conn conn' : Connection} {report : StatusReport}

/-- A context after notifications that tell of no change, with this connection but for what its device
    read. -/
structure Noting (F : ω → Prop) (b : Ctx ω) (conn : Connection) (c : Ctx ω) : Prop where
  loop : c.loop =
    { b.loop with conn := c.loop.conn, pending := c.loop.pending, settleAt := c.loop.settleAt }
  conn : ∃ device, c.loop.conn = some { conn with device }
  changes : changes c.emitted = changes b.emitted
  asked : c.asked = b.asked
  faithful : Faithful c
  world : F c.world

namespace Noting

theorem push (h : Noting F b conn c) {event : Event} (hon : event.onOff = [])
    (hchange : event.change = none) : Noting F b conn (c.push event) where
  loop := by rw [Ctx.push, h.loop]
  conn := h.conn
  changes := by
    rw [changes_push, hchange, h.changes]
    exact List.append_nil _
  asked := h.asked
  faithful := h.faithful.push hon
  world := h.world

end Noting

namespace Watch
open Prog

theorem wp_lost_unconnected (error : Error) {Q : Except Stop Unit → Ctx ω → Prop}
    (hlost : ∀ r c', c'.loop.conn = none → Q r c') : (lost error).wp Q c := by
  unfold lost
  rw [loop_bind]
  rcases hconn : c.loop.conn with _ | conn
  · exact hlost _ c hconn
  · simp only [Option.isSome_some, if_true, setLoop_bind, emit_bind, instant_bind, wp_setLoop]
    refine hlost _ _ ?_
    simp [Ctx.push, WatchLoop.dropConnection, hconn]

/-- A report is noted. Then it is used, unless it is stale or an answer with events still queued. -/
theorem wp_status_noting (at' : Instant) (missed : ℕ) (hconn : b.loop.conn = some conn)
    (hawaiting : conn.awaitingConfig = false) (hfaithful : Faithful b) (hworld : F b.world)
    {Q : Except Stop Unit → Ctx ω → Prop}
    (hchanged : contains report.reason Reason.configChanged = true → ∀ conn' c, Noting F b conn' c →
      configChanged.wp (fun r c' => c'.loop.conn = none ∨ r = .ok () ∧ Noting F b conn' c') c)
    (hlost : ∀ r c, c.loop.conn = none → Q r c)
    (huse : ∀ conn' c,
      let hostRequest := contains report.reason Reason.hostRequest
      let stale := !hostRequest && conn.isStale report.seq
      conn'.snapshotSeq = (if hostRequest || stale then conn.snapshotSeq else none) →
      conn'.awaitingConfig = false → conn'.clock.cur.isSome = true → Noting F b conn' c →
      if stale || hostRequest && report.moreEvents then Q (.ok ()) c else (absorb report).wp Q c) :
    (status report at' missed).wp Q b := by
  unfold status
  rw [loop_bind, connection_bind hconn]
  dsimp only at huse ⊢
  generalize hstale :
    (!contains report.reason Reason.hostRequest && conn.isStale report.seq) = stale at huse ⊢
  rw [setConn_bind]
  generalize hconn1 : ({ conn with
    clock := conn.clock.add at' report.timestampUs
    snapshotSeq := if contains report.reason Reason.hostRequest || stale then conn.snapshotSeq else none
    awaitingConfig := conn.awaitingConfig &&
      !(contains report.reason Reason.configChanged && !stale) } : Connection) = conn1
  have huse1 := fun c => huse conn1 c (by rw [← hconn1]) (by rw [← hconn1, hawaiting]; rfl)
    (by rw [← hconn1]; exact DeviceClock.cur_add _ _ _)
  have hawaiting1 : conn1.awaitingConfig = false := by rw [← hconn1, hawaiting]; rfl
  refine wp_then (R := fun _ => Noting F b conn1) ?_ fun _ c1 h1 => ?_
  · rw [wp_only]
    exact ⟨fun _ => ⟨rfl, ⟨conn1.device, rfl⟩, rfl, rfl, hfaithful.of_view rfl, hworld⟩,
      fun _ => ⟨rfl, ⟨conn1.device, rfl⟩, rfl, rfl, hfaithful.of_view rfl, hworld⟩⟩
  rw [emit_bind]
  refine wp_then (R := fun _ => Noting F b conn1) ?_ fun _ c2 h2 => ?_
  · rw [wp_only]
    exact ⟨fun _ => (wp_emit _ _).mpr ((h1.push rfl rfl).push rfl rfl), fun _ => h1.push rfl rfl⟩
  refine wp_seq (R := fun r c => c.loop.conn = none ∨ r = .ok () ∧ Noting F b conn1 c) ?_
    (fun _ c3 h3 => ?_) fun e c3 h3 => ?_
  · rw [wp_only]
    exact ⟨fun htells => hchanged htells conn1 c2 h2, fun _ => Or.inr ⟨rfl, h2⟩⟩
  · rw [loop_bind]
    rcases h3 with hnone | ⟨-, h3⟩
    · rw [hnone]
      exact hlost _ _ hnone
    · obtain ⟨device, hdevice⟩ := h3.conn
      have huse3 := huse1 c3 h3
      rw [hdevice]
      dsimp only
      rw [hawaiting1, Bool.or_false]
      split at huse3
      · next h => rw [if_pos h]; exact huse3
      · next h => rw [if_neg h]; exact huse3
  · rcases h3 with hnone | ⟨heq, -⟩
    · exact hlost _ _ hnone
    · cases heq

end Watch

end Hidpin.Host
