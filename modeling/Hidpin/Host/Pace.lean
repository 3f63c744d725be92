import Hidpin.Host.Trace
import Hidpin.Host.View

/-! How often the watch loop writes its target back. The elapsed time that `config_changed` tests and the
    restore alarm both keep `restore_target` a second away from its last entry that reached the device: an
    alarm that is armed is a second later than that entry, whichever of the three places armed it. -/

namespace Hidpin.Host
open Lib
open Prog (Keeps)

variable {ω α : Type} [World ω]

/-- What the monotonic clock shows. -/
def clock (w : ω) : Instant := (World.instant w).1

/-- The clock does not go back, whatever is called. -/
class Monotonic (ω : Type) [World ω] : Prop where
  devices : ∀ w : ω, clock w ≤ clock (World.devices w).2
  openDevice : ∀ entry (w : ω), clock w ≤ clock (World.openDevice entry w).2
  read : ∀ timeout (w : ω), clock w ≤ clock (World.read timeout w).2
  write : ∀ report (w : ω), clock w ≤ clock (World.write report w).2
  getFeatureReport : ∀ reportId (w : ω), clock w ≤ clock (World.getFeatureReport reportId w).2
  sendFeatureReport : ∀ report (w : ω), clock w ≤ clock (World.sendFeatureReport report w).2
  getInputReport : ∀ reportId (w : ω), clock w ≤ clock (World.getInputReport reportId w).2
  instant : ∀ w : ω, clock w ≤ clock (World.instant w).2
  systemTime : ∀ w : ω, clock w ≤ clock (World.systemTime w).2
  seed : ∀ w : ω, clock w ≤ clock (World.seed w).2

theorem unmoved_clock [Monotonic ω] (t : Instant) : Device.Unmoved fun w : ω => t ≤ clock w where
  write report w h := h.trans (Monotonic.write report w)
  getFeatureReport reportId w h := h.trans (Monotonic.getFeatureReport reportId w)
  sendFeatureReport report w h := h.trans (Monotonic.sendFeatureReport report w)
  getInputReport reportId w h := h.trans (Monotonic.getInputReport reportId w)

/-- The count that a notification of a restore has. -/
def Event.restoreCount : Event → Option ℕ
  | .pinConfigRestored _ count => some count
  | _ => none

/-- The counts that the events of restored configurations carry. -/
def restoreCounts (events : List Event) : List ℕ := events.filterMap Event.restoreCount

/-! ### What the other statements leave alone -/

/-- The fields that a restore is about; the alarm may be cleared. -/
structure SamePace (l l' : WatchLoop) : Prop where
  lastRestore : l'.lastRestore = l.lastRestore
  restoreAt : l'.restoreAt = l.restoreAt ∨ l'.restoreAt = none
  restoreCount : l'.restoreCount = l.restoreCount

/-- A context that statements without a restore may lead to. -/
structure Frame (c c' : Ctx ω) : Prop where
  pace : SamePace c.loop c'.loop
  told : ∃ new, c'.emitted = c.emitted ++ new ∧ restoreCounts (new.map Emitted.event) = []
  clock : clock c.world ≤ clock c'.world

namespace Frame
variable {b c c' : Ctx ω}

theorem refl (c : Ctx ω) : Frame c c := ⟨⟨rfl, .inl rfl, rfl⟩, ⟨[], by simp, rfl⟩, le_rfl⟩

theorem loop (h : Frame b c) (l : WatchLoop) (hl : SamePace c.loop l) : Frame b { c with loop := l } where
  pace :=
    { lastRestore := hl.lastRestore.trans h.pace.lastRestore
      restoreAt := hl.restoreAt.elim (fun heq => heq ▸ h.pace.restoreAt) .inr
      restoreCount := hl.restoreCount.trans h.pace.restoreCount }
  told := h.told
  clock := h.clock

theorem world (h : Frame b c) {w : ω} (hw : Host.clock c.world ≤ Host.clock w) :
    Frame b { c with world := w } :=
  ⟨h.pace, h.told, h.clock.trans hw⟩

theorem push (h : Frame b c) {event : Event} (he : event.restoreCount = none) : Frame b (c.push event) where
  pace := ⟨h.pace.lastRestore, h.pace.restoreAt, h.pace.restoreCount⟩
  told := by
    obtain ⟨new, hnew, hnone⟩ := h.told
    refine ⟨new ++ [⟨event, c.loop.config⟩], by rw [Ctx.push, hnew, List.append_assoc], ?_⟩
    rw [List.map_append, restoreCounts, List.filterMap_append, ← restoreCounts, hnone]
    simp [he]
  clock := h.clock

theorem trans {d : Ctx ω} (h : Frame b c) (h' : Frame c d) : Frame b d where
  pace :=
    { lastRestore := h'.pace.lastRestore.trans h.pace.lastRestore
      restoreAt := h'.pace.restoreAt.elim (fun heq => heq ▸ h.pace.restoreAt) .inr
      restoreCount := h'.pace.restoreCount.trans h.pace.restoreCount }
  told := by
    obtain ⟨new, hnew, hnone⟩ := h.told
    obtain ⟨more, hmore, hnone'⟩ := h'.told
    refine ⟨new ++ more, by rw [hmore, hnew, List.append_assoc], ?_⟩
    rw [List.map_append, restoreCounts, List.filterMap_append, ← restoreCounts, ← restoreCounts,
      hnone, hnone']
    rfl
  clock := h.clock.trans h'.clock

end Frame

/-- A method that restores nothing. -/
def Framed (m : Watch ω α) : Prop := ∀ b, Keeps (Frame b) m

namespace Framed
open Watch (Absorbs)

omit [World ω] in
theorem sameDrop (l : WatchLoop) : SamePace l l.dropConnection := by
  unfold WatchLoop.dropConnection
  split
  · exact ⟨rfl, .inr rfl, rfl⟩
  · exact ⟨rfl, .inl rfl, rfl⟩

theorem pure (a : α) : Framed (Pure.pure a : Watch ω α) := fun _ => Keeps.pure a

theorem throw (e : Stop) : Framed (MonadExcept.throw e : Watch ω α) := fun _ => Keeps.throw e

theorem bind {β : Type} {m : Watch ω α} {f : α → Watch ω β} (hm : Framed m) (hf : ∀ a, Framed (f a)) :
    Framed (m >>= f) := fun b => Keeps.bind (hm b) fun a => hf a b

theorem only {p : Prop} [Decidable p] {m : Watch ω Unit} (hm : Framed m) : Framed (Prog.only p m) := fun b =>
  Keeps.only fun _ => hm b

theorem gets (f : Ctx ω → α) : Framed (Prog.gets f : Watch ω α) := fun _ => Keeps.gets f

theorem loop : Framed (Watch.loop : Watch ω WatchLoop) := gets _

theorem result {m : Watch ω α} (hm : Framed m) : Framed (Watch.result m) := fun b => Keeps.catching (hm b)

theorem connection : Framed (Watch.connection : Watch ω Connection) := fun _ => Watch.Calm.connection

theorem setLoop {f : WatchLoop → WatchLoop} (hf : ∀ l, SamePace l (f l)) :
    Framed (Watch.setLoop f : Watch ω Unit) :=
  fun _ => Keeps.update fun c h => h.loop _ (hf c.loop)

theorem setConn (conn : Connection) : Framed (Watch.setConn conn : Watch ω Unit) :=
  setLoop fun _ => ⟨rfl, .inl rfl, rfl⟩

theorem emit {event : Event} (he : event.restoreCount = none) : Framed (Watch.emit event : Watch ω Unit) :=
  fun _ => Keeps.update fun _ h => h.push he

/-- What is recorded besides does not matter. -/
theorem update {f : Ctx ω → Ctx ω}
    (hf : ∀ c, (f c).world = c.world ∧ (f c).emitted = c.emitted ∧ SamePace c.loop (f c).loop) :
    Framed (Prog.update f : Watch ω Unit) := fun _ => Keeps.update fun c h => by
  refine h.trans ⟨(hf c).2.2, ⟨[], ?_, rfl⟩, ?_⟩
  · rw [(hf c).2.1, List.append_nil]
  · rw [(hf c).1]

theorem call {f : ω → α × ω} (hf : ∀ w, clock w ≤ clock (f w).2) :
    Framed (Prog.call fun c : Ctx ω => ((f c.world).1, { c with world := (f c.world).2 })) := fun _ =>
  Keeps.call fun c h => h.world (hf c.world)

theorem setConfig (config : PinConfig) : Framed (Watch.setConfig config : Watch ω Unit) :=
  bind loop fun _ => bind (only (throw _)) fun _ => setLoop fun _ => ⟨rfl, .inl rfl, rfl⟩

theorem ofExcept (r : Except Error α) : Framed (Watch.ofExcept r : Watch ω α) :=
  fun _ => Watch.Calm.ofExcept r

theorem onDevice {m : Device.Io ω α} (hm : ∀ t, Keeps (fun s => t ≤ clock s.2) m) :
    Framed (Watch.onDevice m) := by
  intro b c h
  rcases hconn : c.loop.conn with _ | conn
  · simpa [Watch.onDevice, Watch.connection, Watch.loop, Prog.exec_bind, hconn] using h
  · have hQ : (Watch.onDevice m).wp (fun _ => Frame b) c := by
      rw [Watch.wp_onDevice conn hconn]
      exact (h.world (hm (clock c.world) (conn.device, c.world) le_rfl)).loop _ ⟨rfl, .inl rfl, rfl⟩
    exact hQ

theorem useDevice (device : Device) {m : Device.Io ω α} (hm : ∀ t, Keeps (fun s => t ≤ clock s.2) m) :
    Framed (Watch.useDevice device m) := by
  intro b c h
  have hclock := hm (clock c.world) (device, c.world) le_rfl
  simp only [Prog.exec, Watch.useDevice, ExceptT.run, StateT.run] at hclock ⊢
  split
  · next heq => exact h.world (by rw [heq] at hclock; exact hclock)
  · next heq => exact h.world (by rw [heq] at hclock; exact hclock)

theorem checkTarget (config : PinConfig) : Framed (Watch.checkTarget config : Watch ω Unit) := fun _ =>
  Watch.Calm.checkTarget config

theorem failed (error : Error) : Framed (Watch.failed error : Watch ω Unit) := by
  refine bind (setLoop fun l => ?_) fun _ => bind (setLoop fun _ => ⟨rfl, .inl rfl, rfl⟩) fun _ =>
    bind loop fun _ => ?_
  · split <;> exact ⟨rfl, .inl rfl, rfl⟩
  · split
    · exact emit rfl
    · exact pure _

variable [Monotonic ω]

theorem instant : Framed (Watch.instant : Watch ω Instant) := call Monotonic.instant

theorem lost (error : Error) : Framed (Watch.lost error : Watch ω Unit) := by
  refine bind loop fun l => ?_
  split
  · refine bind (setLoop sameDrop) fun _ => bind (emit rfl) fun _ => bind instant fun _ => ?_
    exact setLoop fun _ => ⟨rfl, .inl rfl, rfl⟩
  · exact pure _

theorem wrote (found config : PinConfig) : Framed (Watch.wrote found config : Watch ω Unit) := by
  refine bind (setConfig config) fun _ => bind (setLoop fun _ => ⟨rfl, .inl rfl, rfl⟩) fun _ =>
    bind instant fun _ => ?_
  exact bind (setLoop fun _ => ⟨rfl, .inl rfl, rfl⟩) fun _ => only (emit rfl)

theorem scanLater : Framed (Watch.scanLater : Watch ω Unit) :=
  bind instant fun _ => setLoop fun _ => ⟨rfl, .inl rfl, rfl⟩

theorem absorb (report : StatusReport) : Framed (Watch.absorb report : Watch ω Unit) := fun b => by
  have hI : Absorbs (Frame b) :=
    { known := fun _ h => h.loop _ ⟨rfl, .inl rfl, rfl⟩
      instant := fun h => h.world (Monotonic.instant _)
      systemTime := fun h => h.world (Monotonic.systemTime _)
      push := @fun c event he h => h.push (by cases event <;> first | rfl | cases he)
      absorbed := fun _ h => ⟨h.pace, h.told, h.clock⟩ }
  exact hI.absorb report

end Framed

/-! ### One restore -/

/-- A context in a restore that began in `b`, after `k` restores that were told. -/
structure Entered (b : Ctx ω) (k : ℕ) (c : Ctx ω) : Prop where
  lastRestore : c.loop.lastRestore = some (clock b.world)
  alarm : ∀ at' ∈ c.loop.restoreAt, clock b.world + restoreInterval ≤ at'
  clock : clock b.world ≤ clock c.world
  told : ∃ new, c.emitted = b.emitted ++ new ∧
    restoreCounts (new.map Emitted.event) = List.range' (b.loop.restoreCount + 1) k
  count : c.loop.restoreCount = b.loop.restoreCount + k

section Entered
variable {b c c' : Ctx ω} {k : ℕ}

theorem Entered.frame (h : Entered b k c) (hc : Frame c c') : Entered b k c' where
  lastRestore := hc.pace.lastRestore.trans h.lastRestore
  alarm at' hat := by
    rcases hc.pace.restoreAt with hsame | hnone
    · exact h.alarm at' (hsame ▸ hat)
    · rw [hnone] at hat
      cases hat
  clock := h.clock.trans hc.clock
  told := by
    obtain ⟨new, hnew, hcounts⟩ := h.told
    obtain ⟨more, hmore, hnone⟩ := hc.told
    refine ⟨new ++ more, by rw [hmore, hnew, List.append_assoc], ?_⟩
    rw [List.map_append, restoreCounts, List.filterMap_append, ← restoreCounts, ← restoreCounts, hnone,
      List.append_nil]
    exact hcounts
  count := hc.pace.restoreCount.trans h.count

/-- The statement that tells of the restore. -/
theorem Entered.push (h : Entered b 0 c) (found : PinConfig) : Entered b 1
    (Ctx.push { c with loop := { c.loop with restoreCount := c.loop.restoreCount + 1 } }
      (.pinConfigRestored found (c.loop.restoreCount + 1))) where
  lastRestore := h.lastRestore
  alarm := h.alarm
  clock := h.clock
  told := by
    obtain ⟨new, hnew, hcounts⟩ := h.told
    refine ⟨new ++ [⟨.pinConfigRestored found (c.loop.restoreCount + 1), _⟩], by
      rw [Ctx.push, hnew, List.append_assoc], ?_⟩
    rw [List.map_append, restoreCounts, List.filterMap_append, ← restoreCounts, hcounts, h.count]
    rfl
  count := congrArg (· + 1) h.count

/-- What a restore leaves: it may have been told once. -/
def Left (b c : Ctx ω) : Prop := ∃ k ≤ 1, Entered b k c

theorem Framed.entered {m : Watch ω α} {f : α → Watch ω Unit} (hm : Framed m) (hk : k ≤ 1)
    (h : Entered b k c) (hf : ∀ a c', Entered b k c' → (f a).wp (fun _ => Left b) c') :
    (m >>= f).wp (fun _ => Left b) c :=
  Prog.wp_seq (R := fun _ c' => Entered b k c') (h.frame (hm c c (.refl c))) hf fun _ _ h' => ⟨k, hk, h'⟩

theorem Framed.left {m : Watch ω Unit} (hm : Framed m) (hk : k ≤ 1) (h : Entered b k c) :
    m.wp (fun _ => Left b) c :=
  ⟨k, hk, h.frame (hm c c (.refl c))⟩

variable [Monotonic ω]

/-- The alarm after a conflict. -/
theorem Entered.rearm (h : Entered b k c) (hk : k ≤ 1) :
    (do let now ← Watch.instant
        Watch.setLoop fun l => { l with restoreAt := some (now + restoreInterval) } : Watch ω Unit).wp
      (fun _ => Left b) c := by
  rw [Watch.instant_bind, Watch.wp_setLoop]
  have hlater := h.frame ((Frame.refl c).world (Monotonic.instant c.world))
  refine ⟨k, hk, hlater.lastRestore, fun at' hat => ?_, hlater.clock, hlater.told, hlater.count⟩
  obtain rfl := Option.some.inj hat
  exact Nat.add_le_add_right h.clock _

/-- An entry that reaches the device. -/
theorem left_restoreTarget {target : PinConfig} {conn : Connection} (htarget : b.loop.target = some target)
    (hconn : b.loop.conn = some conn) : Watch.restoreTarget.wp (fun _ => Left b) b := by
  unfold Watch.restoreTarget
  rw [Watch.loop_bind, htarget, hconn]
  dsimp only
  rw [Watch.setLoop_bind, Watch.instant_bind, Watch.setLoop_bind]
  have h0 : Entered b 0 { b with
      world := (World.instant b.world).2
      loop := { b.loop with restoreAt := none, lastRestore := some (World.instant b.world).1 } } :=
    ⟨rfl, fun _ hat => (by cases hat), Monotonic.instant b.world, ⟨[], (List.append_nil _).symm, rfl⟩, rfl⟩
  refine (Framed.result (Framed.onDevice fun t => (unmoved_clock t).getPinConfig)).entered (by decide) h0
    fun r c1 h1 => ?_
  rcases r with e | read
  · exact (Framed.lost e).left (by decide) h1
  refine (Framed.setConfig _).entered (by decide) h1 fun _ c2 h2 => ?_
  split
  · exact (Framed.pure ()).left (by decide) h2
  refine (Framed.result (Framed.onDevice fun t => (unmoved_clock t).setPinConfig target)).entered
    (by decide) h2 fun r c3 h3 => ?_
  rcases r with e | _
  · cases e with
    | pinConfigRejected result gpio isLocal => exact (Framed.throw _).left (by decide) h3
    | pinConfigConflict expected found => exact h3.rearm (by decide)
    | _ => exact (Framed.lost _).left (by decide) h3
  · dsimp only
    rw [Watch.setLoop_bind, Watch.loop_bind, Watch.emit_bind]
    exact (Framed.wrote _ _).left le_rfl (h3.push _)

end Entered

/-! ### The log -/

/-- The entries so far are a second apart, an armed alarm is a second after the last one, and the restores
    that were told are those of the entries. -/
structure Paced (log : List Restore) (c : Ctx ω) : Prop where
  spaced : log.IsChain fun r r' => r.began + restoreInterval ≤ r'.began
  last : c.loop.lastRestore = log.getLast?.map Restore.began
  clock : ∀ last ∈ c.loop.lastRestore, last ≤ clock c.world
  alarm : ∀ at' ∈ c.loop.restoreAt, ∀ last ∈ c.loop.lastRestore, last + restoreInterval ≤ at'
  once : ∀ r ∈ log, (restoreCounts r.events).length ≤ 1
  told : restoreCounts (c.emitted.map Emitted.event) = log.flatMap fun r => restoreCounts r.events
  counts : restoreCounts (c.emitted.map Emitted.event) = List.range' 1 c.loop.restoreCount

section Paced
variable {log : List Restore} {b c c' : Ctx ω}

theorem Paced.frame (h : Paced log c) (hc : Frame c c') : Paced log c' := by
  obtain ⟨new, hnew, hnone⟩ := hc.told
  have hcounts : restoreCounts (c'.emitted.map Emitted.event) =
      restoreCounts (c.emitted.map Emitted.event) := by
    rw [hnew, List.map_append, restoreCounts, List.filterMap_append, ← restoreCounts, ← restoreCounts, hnone,
      List.append_nil]
  refine ⟨h.spaced, hc.pace.lastRestore.trans h.last, ?_, ?_, h.once, hcounts.trans h.told, ?_⟩
  · rw [hc.pace.lastRestore]
    exact fun last hlast => (h.clock last hlast).trans hc.clock
  · rw [hc.pace.lastRestore]
    intro at' hat
    rcases hc.pace.restoreAt with hsame | hnone
    · exact h.alarm at' (hsame ▸ hat)
    · rw [hnone] at hat
      cases hat
  · rw [hcounts, hc.pace.restoreCount]
    exact h.counts

theorem Framed.paced {m : Watch ω α} (hm : Framed m) : Keeps (Paced log) m :=
  fun c h => h.frame (hm c c (.refl c))

/-- An alarm a second after the last entry. -/
theorem Paced.rearm (h : Paced log c) {at' : Instant}
    (hat : ∀ last ∈ c.loop.lastRestore, last + restoreInterval ≤ at') :
    Paced log { c with loop := { c.loop with restoreAt := some at' } } :=
  ⟨h.spaced, h.last, h.clock, fun _ hsome => Option.some.inj hsome ▸ hat, h.once, h.told, h.counts⟩

/-- The entry of a restore is one more in the log. -/
theorem Paced.enter (h : Paced log b)
    (hready : ∀ last ∈ b.loop.lastRestore, last + restoreInterval ≤ Host.clock b.world)
    (hleft : Left b c) :
    Paced (log ++ [⟨Host.clock b.world, (c.emitted.drop b.emitted.length).map Emitted.event⟩]) c := by
  obtain ⟨k, hk, hentered⟩ := hleft
  obtain ⟨new, hnew, hcounts⟩ := hentered.told
  have hevents : c.emitted.drop b.emitted.length = new := by rw [hnew, List.drop_left]
  have htold : restoreCounts (c.emitted.map Emitted.event) =
      restoreCounts (b.emitted.map Emitted.event) ++ restoreCounts (new.map Emitted.event) := by
    rw [hnew, List.map_append, restoreCounts, List.filterMap_append]
    rfl
  rw [hevents]
  refine ⟨?_, ?_, ?_, ?_, ?_, ?_, ?_⟩
  · rw [List.isChain_append]
    refine ⟨h.spaced, List.isChain_singleton _, fun r hr r' hr' => ?_⟩
    obtain rfl := Option.some.inj hr'
    refine hready r.began ?_
    rw [h.last, hr]
    rfl
  · rw [hentered.lastRestore, List.getLast?_append]
    rfl
  · rw [hentered.lastRestore]
    intro last hlast
    exact Option.some.inj hlast ▸ hentered.clock
  · rw [hentered.lastRestore]
    intro at' hat last hlast
    exact Option.some.inj hlast ▸ hentered.alarm at' hat
  · intro r hr
    rcases List.mem_append.mp hr with hr | hr
    · exact h.once r hr
    · rw [List.mem_singleton.mp hr, hcounts, List.length_range']
      exact hk
  · rw [htold, h.told, List.flatMap_append, List.flatMap_singleton]
  · rw [htold, h.counts, hcounts, hentered.count, ← List.range'_append_1, Nat.add_comm]

variable [Monotonic ω]

theorem Paced.tick (h : Paced log c) : Paced log { c with world := (World.instant c.world).2 } :=
  h.frame ((Frame.refl c).world (Monotonic.instant c.world))

/-- A second after the last entry, `restore_target` keeps the pace. -/
theorem paced_restoreTarget (h : Paced log c)
    (hready : ∀ last ∈ c.loop.lastRestore, last + restoreInterval ≤ Host.clock c.world) :
    Trace.restoreTarget.wp (fun _ s => Paced s.2 s.1) (c, log) := by
  unfold Prog.wp
  change Paced (if c.loop.target.isSome && c.loop.conn.isSome then _ else log) (Watch.restoreTarget.exec c).2
  rcases htarget : c.loop.target with _ | target
  · have hstop : (Watch.restoreTarget.exec c).2 = c := by
      simp [Watch.restoreTarget, Watch.loop, Prog.exec_bind, htarget]
    rw [hstop]
    exact h
  rcases hconn : c.loop.conn with _ | conn
  · have hstop : (Watch.restoreTarget.exec c).2 = c := by
      simp [Watch.restoreTarget, Watch.loop, Prog.exec_bind, htarget, hconn]
    rw [hstop]
    exact h
  · exact h.enter hready (left_restoreTarget htarget hconn)

end Paced

namespace Trace
open Prog (quietly)

section Access
variable {log : List Restore} {c : Ctx ω}

/-- The log and the context of a traced loop. -/
def Even (s : Ctx ω × List Restore) : Prop := Paced s.2 s.1

theorem quiet {m : Watch ω α} (hm : Framed m) : Keeps (Even (ω := ω)) (quietly m : Trace ω α) :=
  fun _ hs => hm.paced _ hs

omit [World ω] in
theorem loop_bind {β : Type} (f : WatchLoop → Trace ω β) (Q : Except Stop β → Ctx ω × List Restore → Prop) :
    (quietly Watch.loop >>= f).wp Q (c, log) ↔ (f c.loop).wp Q (c, log) := Iff.rfl

theorem instant_bind {β : Type} (f : Instant → Trace ω β) (Q : Except Stop β → Ctx ω × List Restore → Prop) :
    (quietly Watch.instant >>= f).wp Q (c, log) ↔
      (f (clock c.world)).wp Q ({ c with world := (World.instant c.world).2 }, log) := Iff.rfl

omit [World ω] in
theorem setLoop_bind {β : Type} (g : WatchLoop → WatchLoop) (f : Unit → Trace ω β)
    (Q : Except Stop β → Ctx ω × List Restore → Prop) :
    (quietly (Watch.setLoop g) >>= f).wp Q (c, log) ↔ (f ()).wp Q ({ c with loop := g c.loop }, log) :=
  Iff.rfl

end Access

variable [Monotonic ω]

omit [World ω] [Monotonic ω] in
/-- The alarm of `config_changed` is a second after the last entry. -/
theorem alarm_later {last now later : ℕ} (h : last ≤ now) (hlater : now ≤ later) :
    last + restoreInterval ≤ later + (restoreInterval - (now - last)) := by
  generalize restoreInterval = interval
  omega

omit [World ω] [Monotonic ω] in
/-- A second has elapsed. -/
theorem elapsed_ready {last now later : ℕ} (h : ¬ now - last < restoreInterval) (hlater : now ≤ later) :
    last + restoreInterval ≤ later := by
  have hpos : 0 < restoreInterval := by decide
  revert h hpos
  generalize restoreInterval = interval
  omega

/-- The test of the elapsed time: it arms the alarm, or a second has passed. -/
theorem even_configChanged : Keeps (Even (ω := ω)) (configChanged : Trace ω Unit) := by
  refine Keeps.bind (quiet (Framed.result (Framed.onDevice fun t => (unmoved_clock t).getPinConfig)))
    fun r => ?_
  rcases r with e | read
  · exact quiet (Framed.lost e)
  refine Keeps.bind (quiet Framed.loop) fun _ => Keeps.bind (quiet (Framed.setConfig _)) fun _ => ?_
  rintro ⟨c, log⟩ h
  change Prog.wp _ (fun _ => Even) _
  rw [loop_bind]
  rcases c.loop.target with _ | target
  · dsimp only
    split
    · exact quiet (Framed.emit rfl) _ h
    · exact h
  dsimp only
  split
  · exact h
  rcases hlast : c.loop.lastRestore with _ | last
  · exact paced_restoreTarget h fun last hsome => by rw [hlast] at hsome; cases hsome
  dsimp only
  rw [instant_bind]
  have h1 := Paced.tick h
  have hclock : last ≤ clock c.world := h.clock last hlast
  have htick : clock c.world ≤ clock (World.instant c.world).2 := Monotonic.instant c.world
  have hsame : ∀ last' ∈ c.loop.lastRestore, last' = last := fun last' hsome => by
    rw [hlast] at hsome
    exact (Option.some.inj hsome).symm
  split
  · next hsoon =>
    rw [instant_bind]
    refine Paced.rearm (h1.frame ((Frame.refl _).world (Monotonic.instant _))) fun last' hsome => ?_
    rw [hsame last' hsome]
    exact alarm_later hclock htick
  · next hlate =>
    refine paced_restoreTarget h1 fun last' hsome => ?_
    rw [hsame last' hsome]
    exact elapsed_ready hlate htick

theorem even_status (report : StatusReport) (at' : Instant) (missed : ℕ) :
    Keeps (Even (ω := ω)) (status report at' missed : Trace ω Unit) := by
  refine Keeps.bind (quiet Framed.loop) fun _ => Keeps.bind (quiet Framed.connection) fun _ =>
    Keeps.bind (quiet (Framed.setConn _)) fun _ => ?_
  refine Keeps.bind (quiet (Framed.only (Framed.setLoop fun _ => ⟨rfl, .inl rfl, rfl⟩))) fun _ =>
    Keeps.bind (quiet (Framed.emit rfl)) fun _ => Keeps.bind (quiet (Framed.only (Framed.emit rfl)))
      fun _ => ?_
  refine Keeps.bind (Keeps.only fun _ => even_configChanged) fun _ =>
    Keeps.bind (quiet Framed.loop) fun l => ?_
  split
  · exact Keeps.pure _
  · split
    · exact Keeps.pure _
    · exact quiet (Framed.absorb report)

theorem even_received (data : List U8) (at' : Instant) :
    Keeps (Even (ω := ω)) (received data at' : Trace ω Unit) := by
  unfold received
  split
  · exact Keeps.pure _
  · split
    · exact Keeps.pure _
    · exact Keeps.bind (quiet Framed.connection) fun _ => Keeps.bind (quiet (Framed.setConn _))
        fun _ => even_status _ _ _

theorem even_snapshot : Keeps (Even (ω := ω)) (snapshot : Trace ω Unit) := by
  refine Keeps.bind (quiet (Framed.result (Framed.onDevice fun t => (unmoved_clock t).requestStatus)))
    fun r => ?_
  rcases r with e | report
  · exact quiet (Framed.lost e)
  refine Keeps.bind (quiet Framed.connection) fun _ => Keeps.bind (quiet (Framed.setConn _)) fun _ =>
    Keeps.bind (quiet (Framed.update fun _ => ⟨rfl, rfl, ⟨rfl, .inl rfl, rfl⟩⟩)) fun _ =>
    Keeps.bind (quiet Framed.instant) fun _ => ?_
  exact Keeps.bind (Keeps.catching (even_status _ _ _)) fun _ => Keeps.pure _

theorem even_connected (entry : DeviceEntry) (info : DeviceInfo) (device : Device) (found : PinConfig)
    (driven : List U8) (awaitingConfig : Bool) :
    Keeps (Even (ω := ω)) (connected entry info device found driven awaitingConfig : Trace ω Unit) := by
  refine Keeps.bind (quiet (Framed.setConn _)) fun _ =>
    Keeps.bind (quiet (Framed.setLoop fun _ => ⟨rfl, .inl rfl, rfl⟩)) fun _ =>
    Keeps.bind (quiet Framed.loop) fun _ =>
    Keeps.bind (quiet (Framed.setLoop fun _ => ⟨rfl, .inl rfl, rfl⟩)) fun _ =>
    Keeps.bind (quiet (Framed.setConfig _)) fun _ => Keeps.bind (quiet (Framed.emit rfl)) fun _ =>
    Keeps.bind (quiet ?_) fun _ => ?_
  · split
    · exact Framed.emit rfl
    · exact Framed.only (Framed.emit rfl)
  · split
    · exact Keeps.bind (quiet Framed.instant) fun _ => quiet (Framed.setLoop fun _ => ⟨rfl, .inl rfl, rfl⟩)
    · exact even_snapshot

theorem even_connect (entry : DeviceEntry) : Keeps (Even (ω := ω)) (connect entry : Trace ω Unit) := by
  refine Keeps.bind (quiet (Framed.call (Monotonic.openDevice entry))) fun r =>
    Keeps.bind (quiet (Framed.ofExcept r)) fun _ =>
    Keeps.bind (quiet (Framed.call Monotonic.seed)) fun seed =>
    Keeps.bind (quiet (Framed.useDevice _ fun t => (unmoved_clock t).readInfo)) fun opened =>
    Keeps.bind (quiet (Framed.setLoop fun _ => ⟨rfl, .inl rfl, rfl⟩)) fun _ =>
    Keeps.bind (quiet (Framed.useDevice _ fun t => (unmoved_clock t).getPinConfig)) fun read =>
    Keeps.bind (quiet Framed.loop) fun l => ?_
  split
  · exact even_connected _ _ _ _ _ _
  · split
    · exact even_connected _ _ _ _ _ _
    · refine Keeps.bind (quiet
        (Framed.result (Framed.useDevice _ fun t => (unmoved_clock t).setPinConfig _))) fun r => ?_
      split
      · exact Keeps.throw _
      · exact Keeps.throw _
      · exact even_connected _ _ _ _ _ _

theorem even_tryConnect : Keeps (Even (ω := ω)) (tryConnect : Trace ω Unit) := by
  have hlater : ∀ e, Keeps (Even (ω := ω))
      (do quietly (Watch.failed e); quietly Watch.scanLater : Trace ω Unit) := fun e =>
    Keeps.bind (quiet (Framed.failed e)) fun _ => quiet Framed.scanLater
  refine Keeps.bind (quiet (Framed.call Monotonic.devices)) fun r => ?_
  split
  · exact Keeps.throw _
  · exact hlater _
  · refine Keeps.bind (quiet Framed.loop) fun l => ?_
    dsimp only
    split
    · exact Keeps.bind (quiet (Framed.setLoop fun _ => ⟨rfl, .inl rfl, rfl⟩)) fun _ => quiet Framed.scanLater
    · split
      · exact Keeps.throw _
      · refine Keeps.bind (quiet (Framed.setLoop fun _ => ⟨rfl, .inl rfl, rfl⟩)) fun _ =>
          Keeps.bind (Keeps.catching (even_connect _)) fun r => ?_
        split
        · exact Keeps.pure _
        · exact hlater _

/-- `set_target` never restores; a conflict arms the alarm a second after now. -/
theorem keeps_setTarget (log : List Restore) (config : PinConfig) :
    Keeps (Paced log) (Watch.setTarget config : Watch ω Unit) := by
  refine Keeps.bind (Framed.paced (Framed.checkTarget config)) fun _ =>
    Keeps.bind (Framed.paced Framed.loop) fun _ =>
    Keeps.bind (Framed.paced (Framed.setLoop fun _ => ⟨rfl, .inl rfl, rfl⟩)) fun _ =>
    Keeps.bind (Framed.paced Framed.loop) fun l => ?_
  rcases l.conn with _ | conn
  · exact Keeps.pure _
  refine Keeps.bind (Framed.paced (Framed.setLoop fun _ => ⟨rfl, .inr rfl, rfl⟩)) fun _ =>
    Keeps.bind (Framed.paced (Framed.onDevice fun t => (unmoved_clock t).getPinConfig)) fun read =>
    Keeps.bind (Framed.paced (Framed.setConfig _)) fun _ => ?_
  split
  · exact Keeps.pure _
  refine Keeps.bind (Framed.paced
    (Framed.result (Framed.onDevice fun t => (unmoved_clock t).setPinConfig config)))
    fun r => ?_
  rcases r with e | _
  · cases e with
    | pinConfigRejected result gpio isLocal =>
      exact Keeps.bind (Framed.paced (Framed.setLoop fun _ => ⟨rfl, .inl rfl, rfl⟩)) fun _ => Keeps.throw _
    | pinConfigConflict expected found =>
      intro c h
      exact h.tick.rearm fun last hlast => Nat.add_le_add_right (h.clock last hlast) _
    | _ => exact Keeps.throw _
  · exact Framed.paced (Framed.wrote _ _)

theorem keeps_serve (log : List Restore) (request : Request) :
    Keeps (Paced log) (Watch.serve request : Watch ω Unit) := by
  refine Keeps.bind (Keeps.catching ?_) fun reply =>
    Framed.paced (Framed.update fun _ => ⟨rfl, rfl, ⟨rfl, .inl rfl, rfl⟩⟩)
  cases request with
  | setTargetPins config => exact keeps_setTarget log config
  | setOutputs levels =>
    refine Keeps.bind (Framed.paced Framed.loop) fun l => ?_
    rcases l.conn with _ | conn
    · exact Keeps.throw _
    · exact Framed.paced (Framed.onDevice fun t => (unmoved_clock t).setOutputs levels)

/-- What follows the settle alarm. -/
theorem even_settled (conn : Option Connection) : Keeps (Even (ω := ω)) (match conn with
    | none => return ()
    | some conn => do
      quietly (Watch.setConn { conn with awaitingConfig := false })
      snapshot : Trace ω Unit) := by
  rcases conn with _ | conn
  · exact Keeps.pure _
  · exact Keeps.bind (quiet (Framed.setConn _)) fun _ => even_snapshot

/-- The alarm: it is due at the earliest a second after the last entry. -/
theorem even_attend : Keeps (Even (ω := ω)) (attend : Trace ω Unit) := by
  rintro ⟨c, log⟩ h
  change Prog.wp _ (fun _ => Even) _
  unfold attend
  rw [instant_bind, loop_bind]
  have h1 : Even ({ c with world := (World.instant c.world).2 }, log) := Paced.tick h
  have htick : clock c.world ≤ clock (World.instant c.world).2 := Monotonic.instant c.world
  split
  · rw [setLoop_bind]
    exact even_tryConnect _ (Paced.frame h1 ((Frame.refl _).loop _ ⟨rfl, .inl rfl, rfl⟩))
  split
  · next hdue =>
    obtain ⟨at', hat, hnow⟩ := (Option.any_eq_true _ _).mp hdue
    rw [setLoop_bind]
    refine paced_restoreTarget (Paced.frame h1 ((Frame.refl _).loop _ ⟨rfl, .inr rfl, rfl⟩))
      fun last hlast => ?_
    exact (Paced.alarm h1 at' hat last hlast).trans ((of_decide_eq_true hnow).trans htick)
  split
  · rw [setLoop_bind]
    exact even_settled _ _ (Paced.frame h1 ((Frame.refl _).loop _ ⟨rfl, .inl rfl, rfl⟩))
  split
  · exact h1
  refine Keeps.bind (quiet (Framed.result (Framed.onDevice fun t =>
    Device.Unmoved.transport fun w (hw : t ≤ clock w) => hw.trans (Monotonic.read _ w)))) (fun r => ?_) _ h1
  rcases r with e | (_ | ⟨byte, rest⟩)
  · exact quiet (Framed.lost e)
  · exact Keeps.pure _
  · exact Keeps.bind (quiet Framed.instant) fun now => even_received _ _

theorem even_iterate : Keeps (Even (ω := ω)) (iterate : Trace ω Bool) := by
  refine Keeps.bind (quiet (Framed.gets _)) fun serving => ?_
  rcases serving with _ | ⟨request, rest⟩
  · refine Keeps.bind (quiet (Framed.update fun _ => ⟨rfl, rfl, ⟨rfl, .inl rfl, rfl⟩⟩)) fun _ =>
      Keeps.bind (quiet (Framed.gets _)) fun shared => ?_
    split
    · exact Keeps.pure _
    refine Keeps.bind (quiet (Framed.update fun _ => ⟨rfl, rfl, ⟨rfl, .inl rfl, rfl⟩⟩)) fun _ =>
      Keeps.bind (quiet (Framed.gets _)) fun serving => ?_
    split
    · exact Keeps.pure _
    · exact Keeps.bind even_attend fun _ => Keeps.pure _
  · refine Keeps.bind (quiet (Framed.update fun _ => ⟨rfl, rfl, ⟨rfl, .inl rfl, rfl⟩⟩)) fun _ =>
      Keeps.bind (fun s hs => keeps_serve s.2 request s.1 hs) fun _ => Keeps.pure _

end Trace

namespace Traced

theorem frame_finish (c : Ctx ω) (e : Option Error) : Frame c (c.finish e) := by
  have hdrop := Framed.sameDrop c.loop
  cases e <;>
    exact ⟨⟨hdrop.lastRestore, hdrop.restoreAt, hdrop.restoreCount⟩, ⟨[], (List.append_nil _).symm, rfl⟩,
      le_rfl⟩

theorem start_paced (o : WatchOptions) (w : ω) : Paced (start o w).log (start o w).watcher.ctx where
  spaced := List.isChain_nil
  last := rfl
  clock _ hlast := by cases hlast
  alarm _ hat := by cases hat
  once _ hr := by cases hr
  told := rfl
  counts := rfl

variable [Monotonic ω]

theorem turn_paced (t : Traced ω) (h : Paced t.log t.watcher.ctx) :
    Paced (t.step .turn).log (t.step .turn).watcher.ctx := by
  rcases halive : t.watcher.alive with _ | _
  · simpa [step, Watcher.step, Watcher.turn, halive] using h
  have heven : Paced _ _ := Trace.even_iterate (t.watcher.ctx, t.log) h
  rw [(Trace.traces_iterate t.watcher.ctx t.log).2] at heven
  have hlog : (t.step .turn).log = (Trace.iterate.exec (t.watcher.ctx, t.log)).2.2 := by simp [step, halive]
  rw [hlog]
  change Paced _ t.watcher.turn.ctx
  unfold Watcher.turn
  rw [if_pos halive]
  rcases hturn : Watch.iterate.exec t.watcher.ctx with ⟨r, c⟩
  rw [hturn] at heven
  rcases r with e | (_ | _)
  · cases e with
    | fatal error => exact heven.frame (frame_finish c (some error))
    | _ => exact heven
  · exact heven.frame (frame_finish c none)
  · exact heven

theorem step_paced (t : Traced ω) (h : Paced t.log t.watcher.ctx) (input : Input) :
    Paced (t.step input).log (t.step input).watcher.ctx := by
  have hcall : ∀ request, Paced t.log (t.watcher.ctx.call request) := fun request => by
    unfold Ctx.call
    split
    · exact h
    · exact ⟨h.spaced, h.last, h.clock, h.alarm, h.once, h.told, h.counts⟩
  cases input with
  | turn => exact t.turn_paced h
  | take => exact ⟨h.spaced, h.last, h.clock, h.alarm, h.once, h.told, h.counts⟩
  | setTargetPins config =>
    unfold step Watcher.step
    dsimp only
    split
    · exact h
    · exact hcall _
  | setOutputs levels => exact hcall _
  | close => exact ⟨h.spaced, h.last, h.clock, h.alarm, h.once, h.told, h.counts⟩

theorem run_paced (o : WatchOptions) (w : ω) (inputs : List Input) :
    Paced (Lib.run step (start o w) inputs).log (Lib.run step (start o w) inputs).watcher.ctx :=
  Lib.run_preserves (P := fun t : Traced ω => Paced t.log t.watcher.ctx)
    (fun t input h => t.step_paced h input) inputs
    (start_paced o w)

omit [Monotonic ω] in
/-- The watcher of a traced run is the watcher of the run. -/
theorem run_watcher (inputs : List Input) (t : Traced ω) :
    (Lib.run step t inputs).watcher = Lib.run Watcher.step t.watcher inputs := by
  induction inputs generalizing t with
  | nil => rfl
  | cons input inputs ih => exact ih (t.step input)

/-- Write-back is limited to once a second. -/
theorem restore_rate (o : WatchOptions) (w : ω) (inputs : List Input) :
    let t := Lib.run step (start o w) inputs
    let told := restoreCounts (t.watcher.ctx.emitted.map Emitted.event)
    t.watcher = Lib.run Watcher.step (.start o w) inputs ∧
      t.log.Pairwise (fun r r' => r.began + restoreInterval ≤ r'.began) ∧
      (∀ r ∈ t.log, (restoreCounts r.events).length ≤ 1) ∧
      told = (t.log.flatMap fun r => restoreCounts r.events) ∧
      told = List.range' 1 told.length := by
  intro t told
  have h : Paced t.log t.watcher.ctx := run_paced o w inputs
  refine ⟨run_watcher inputs _, ?_, h.once, h.told, ?_⟩
  · -- The pairs of neighbours are enough: an entry is later than all that is a second before a later one.
    have htrans : IsTrans Restore fun r r' => r.began + restoreInterval ≤ r'.began :=
      ⟨fun _ _ _ h h' => (h.trans (Nat.le_add_right _ _)).trans h'⟩
    exact List.isChain_iff_pairwise.mp h.spaced
  · have hlength : told.length = t.watcher.ctx.loop.restoreCount :=
      (congrArg List.length h.counts).trans List.length_range'
    rw [hlength]
    exact h.counts

end Traced

/-! ### A clock that goes on -/

/-- Prepared answers, and a clock that is 100 ms later at each look at it. -/
structure Ticking where
  script : Script
  now : Instant

namespace Ticking

def call {α : Type} (f : Script → α × Script) (t : Ticking) : α × Ticking :=
  ((f t.script).1, { t with script := (f t.script).2 })

instance : World Ticking where
  devices := call World.devices
  openDevice entry := call (World.openDevice entry)
  read timeout := call (World.read timeout)
  write report := call (World.write report)
  getFeatureReport reportId := call (World.getFeatureReport reportId)
  sendFeatureReport report := call (World.sendFeatureReport report)
  getInputReport reportId := call (World.getInputReport reportId)
  instant t := (t.now, { t with now := t.now + 100 * millisecond })
  systemTime := call World.systemTime
  seed := call World.seed

instance : Monotonic Ticking where
  devices _ := le_rfl
  openDevice _ _ := le_rfl
  read _ _ := le_rfl
  write _ _ := le_rfl
  getFeatureReport _ _ := le_rfl
  sendFeatureReport _ _ := le_rfl
  getInputReport _ _ := le_rfl
  instant t := Nat.le_add_right t.now _
  systemTime _ := le_rfl
  seed _ := le_rfl

def target : PinConfig := fun _ => ⟨.input, 20⟩

def applied (id : U8) : List U8 :=
  reportIdPinConfig :: PinConfigReport.encode ⟨.ok, resultGpioNone, id, target⟩

def changed (seq : U8) : List U8 := [1, seq, 0, 0x04] ++ List.replicate 60 0

/-- The device has the target at first; then another program takes it away as often as it is written back. -/
def contest : Ticking where
  script :=
    { features := [.ok Script.deviceInfo, .ok (applied 0),
        .ok Script.unconfigured, .ok Script.unconfigured, .ok (applied (RequestIds.next (.new 0 0)).1),
        .ok Script.unconfigured, .ok Script.unconfigured,
        .ok (applied (RequestIds.next (RequestIds.next (.new 0 0)).2).1)]
      sends := []
      inputs := [.ok Script.status]
      reads := [.ok (changed 1), .ok (changed 2)] }
  now := 0

def contested : Traced Ticking :=
  Lib.run Traced.step (.start ⟨none, some target, [], 1⟩ contest) (List.replicate 9 .turn)

/-- It is written back at once, and again when the alarm of the second change is due. -/
theorem restore_rate_contested :
    restoreCounts (contested.watcher.ctx.emitted.map Emitted.event) = [1, 2] ∧
      contested.log.map Restore.began = [500 * millisecond, 1700 * millisecond] ∧
      contested.log.Pairwise fun r r' => r.began + restoreInterval ≤ r'.began := by
  have hlength : (restoreCounts (contested.watcher.ctx.emitted.map Emitted.event)).length = 2 := by
    decide +kernel
  obtain ⟨-, hpairwise, -, -, hcounts⟩ :=
    Traced.restore_rate ⟨none, some target, [], 1⟩ contest (List.replicate 9 .turn)
  rw [← contested, hlength] at hcounts
  exact ⟨hcounts, by decide +kernel, hpairwise⟩

end Ticking

end Hidpin.Host
