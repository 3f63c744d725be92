import Hidpin.Host.OnOff

/-! The life cycle of the watch loop: which alarms are armed while a device is connected and while it is
    not, and in which order the loop tells about connections. Every method takes a sound state to a
    sound one, also where the connection is lost on the way, and none of them panics. -/

namespace Hidpin.Host
open Lib

/-- What a notification says about the connection; most are about a connected device. -/
inductive Notice where
  | connected (reconnected : Bool)
  | disconnected
  | connectFailed
  | whileConnected
  deriving DecidableEq

/-- What an event says of the connection. -/
def Event.notice : Event → Notice
  | .connected _ _ _ _ reconnected => .connected reconnected
  | .disconnected _ => .disconnected
  | .connectFailed _ => .connectFailed
  | _ => .whileConnected

/-- What the notifications so far say: whether a device is connected, and whether one ever was. -/
structure Phase where
  connected : Bool
  ever : Bool
  deriving DecidableEq

/-- The phase after a notification that may come in this one. -/
def Phase.next (p : Phase) : Notice → Option Phase
  | .connected reconnected => if !p.connected && reconnected == p.ever then some ⟨true, true⟩ else none
  | .disconnected => if p.connected then some ⟨false, p.ever⟩ else none
  | .connectFailed => if !p.connected then some p else none
  | .whileConnected => if p.connected then some p else none

/-- The phase after notifications in a possible order. -/
def phase (notices : List Notice) : Option Phase := notices.foldlM Phase.next ⟨false, false⟩

theorem phase_concat (notices : List Notice) (notice : Notice) :
    phase (notices ++ [notice]) = (phase notices).bind fun p => p.next notice := by
  rw [phase, List.foldlM_append]
  cases h : notices.foldlM Phase.next ⟨false, false⟩ <;> simp [phase, h]

/-- Whether the watch loop ends with it: neither an error that its caller handles nor a panic. -/
def Stop.ends : Stop → Bool
  | .fatal _ | .hangs => true
  | _ => false

/-- The alarms of the loop: scanning is for a missing device, the settle alarm for a CONFIG_CHANGED that
    is awaited, and the restore alarm for a connected device. -/
structure Alarms (l : WatchLoop) : Prop where
  scan : l.scanAt.isSome = !l.conn.isSome
  settle : l.settleAt.isSome = l.conn.any Connection.awaitingConfig
  restore : l.conn = none → l.restoreAt = none

/-- The fields that the alarms and the phase are about are the same. -/
structure SameLife (l l' : WatchLoop) : Prop where
  conn : l'.conn.map Connection.awaitingConfig = l.conn.map Connection.awaitingConfig
  scanAt : l'.scanAt = l.scanAt
  restoreAt : l'.restoreAt = l.restoreAt
  settleAt : l'.settleAt = l.settleAt
  everConnected : l'.everConnected = l.everConnected

theorem SameLife.isSome {l l' : WatchLoop} (h : SameLife l l') : l'.conn.isSome = l.conn.isSome := by
  rw [← Option.isSome_map (f := Connection.awaitingConfig), h.conn, Option.isSome_map]

theorem SameLife.awaiting {l l' : WatchLoop} (h : SameLife l l') :
    l'.conn.any Connection.awaitingConfig = l.conn.any Connection.awaitingConfig := by
  have hany : ∀ o : Option Connection, o.any Connection.awaitingConfig =
      (o.map Connection.awaitingConfig).any id := fun o => by cases o <;> rfl
  rw [hany, hany, h.conn]

theorem Alarms.of_same {l l' : WatchLoop} (h : Alarms l) (hs : SameLife l l') : Alarms l' where
  scan := by rw [hs.scanAt, hs.isSome]; exact h.scan
  settle := by rw [hs.settleAt, hs.awaiting]; exact h.settle
  restore hnone := by
    rw [hs.restoreAt]
    refine h.restore (Option.not_isSome_iff_eq_none.mp ?_)
    rw [← hs.isSome, hnone]
    decide

variable {ω : Type}

/-- What the emitted notifications say about the connection. -/
def notices (emitted : List Emitted) : List Notice := emitted.map fun e => e.event.notice

theorem notices_push (c : Ctx ω) (event : Event) :
    notices (c.push event).emitted = notices c.emitted ++ [event.notice] := by
  simp [notices, Ctx.push]

/-- The notifications came in a possible order. -/
def Accepted (c : Ctx ω) : Prop := (phase (notices c.emitted)).isSome = true

/-- A context between two statements of the loop where nothing is under way. -/
structure Sound (c : Ctx ω) : Prop where
  alarms : Alarms c.loop
  phase : phase (notices c.emitted) = some ⟨c.loop.conn.isSome, c.loop.everConnected⟩
  faithful : Faithful c

/-- A context before a device is opened: nothing is connected and no alarm is armed. -/
structure Idle (c : Ctx ω) : Prop where
  conn : c.loop.conn = none
  scanAt : c.loop.scanAt = none
  restoreAt : c.loop.restoreAt = none
  settleAt : c.loop.settleAt = none
  phase : phase (notices c.emitted) = some ⟨false, c.loop.everConnected⟩
  faithful : Faithful c

/-- A context with a new connection that was just told about. -/
structure Announced (awaitingConfig : Bool) (c : Ctx ω) : Prop where
  conn : c.loop.conn.map Connection.awaitingConfig = some awaitingConfig
  scanAt : c.loop.scanAt = none
  settleAt : c.loop.settleAt = none
  phase : phase (notices c.emitted) = some ⟨true, c.loop.everConnected⟩
  faithful : Faithful c

section Faithful
variable {c c' : Ctx ω}

theorem Faithful.of_view [World ω] (h : Faithful c) (hv : c'.view = c.view) : Faithful c' :=
  Watch.stable_faithful.view c hv h

theorem Faithful.push [World ω] (h : Faithful c) {event : Event} (he : event.onOff = []) :
    Faithful (c.push event) :=
  Watch.stable_faithful.push he h

theorem Faithful.inRange (h : Faithful c) : c.loop.knownInRange = true := decide_eq_true h.known_lt

end Faithful

namespace Sound
variable {c c' : Ctx ω}

theorem accepted (h : Sound c) : Accepted c := by rw [Accepted, h.phase]; rfl

theorem of_same [World ω] (h : Sound c) (hs : SameLife c.loop c'.loop) (hv : c'.view = c.view) :
    Sound c' where
  alarms := h.alarms.of_same hs
  phase := by
    rw [show c'.emitted = c.emitted from congrArg View.emitted hv, hs.isSome, hs.everConnected]
    exact h.phase
  faithful := h.faithful.of_view hv

theorem push [World ω] (h : Sound c) (hconn : c.loop.conn.isSome = true) {event : Event}
    (he : event.notice = .whileConnected) (hon : event.onOff = []) : Sound (c.push event) where
  alarms := h.alarms.of_same ⟨rfl, rfl, rfl, rfl, rfl⟩
  phase := by
    have hp := h.phase
    rw [hconn] at hp
    rw [notices_push, phase_concat, hp, he]
    exact congrArg (fun connected => some (Phase.mk connected _)) hconn.symm
  faithful := h.faithful.push hon

theorem setConfig [World ω] (h : Sound c) (config : PinConfig) :
    Sound { c with loop := c.loop.setConfig config } where
  alarms := h.alarms.of_same ⟨rfl, rfl, rfl, rfl, rfl⟩
  phase := h.phase
  faithful := Watch.stable_faithful.setConfig config h.faithful

theorem world [World ω] (h : Sound c) (w : ω) : Sound { c with world := w } :=
  h.of_same ⟨rfl, rfl, rfl, rfl, rfl⟩ rfl

theorem setRestoreAt [World ω] (h : Sound c) {at' : Option Instant} (hat : c.loop.conn = none → at' = none) :
    Sound { c with loop := { c.loop with restoreAt := at' } } where
  alarms := ⟨h.alarms.scan, h.alarms.settle, hat⟩
  phase := h.phase
  faithful := h.faithful.of_view rfl

theorem withDevice [World ω] (h : Sound c) {conn : Connection} (hconn : c.loop.conn = some conn)
    (s : Device × ω) : Sound (c.withDevice conn s) :=
  h.of_same ⟨by rw [hconn]; rfl, rfl, rfl, rfl, rfl⟩ rfl

end Sound

theorem Idle.accepted {c : Ctx ω} (h : Idle c) : Accepted c := by rw [Accepted, h.phase]; rfl

/-- What happens between two attempts to open a device arms no alarm. -/
theorem Idle.of_same [World ω] {c c' : Ctx ω} (h : Idle c) (hs : SameLife c.loop c'.loop)
    (hv : c'.view = c.view) : Idle c' where
  conn := Option.map_eq_none_iff.mp (by rw [hs.conn, h.conn]; rfl)
  scanAt := hs.scanAt.trans h.scanAt
  restoreAt := hs.restoreAt.trans h.restoreAt
  settleAt := hs.settleAt.trans h.settleAt
  phase := by
    rw [show c'.emitted = c.emitted from congrArg View.emitted hv, hs.everConnected]
    exact h.phase
  faithful := h.faithful.of_view hv

namespace Announced
variable {awaitingConfig : Bool} {c : Ctx ω}

theorem isSome (h : Announced awaitingConfig c) : c.loop.conn.isSome = true := by
  rw [← Option.isSome_map (f := Connection.awaitingConfig), h.conn]
  rfl

theorem push [World ω] (h : Announced awaitingConfig c) {event : Event} (he : event.notice = .whileConnected)
    (hon : event.onOff = []) : Announced awaitingConfig (c.push event) where
  conn := h.conn
  scanAt := h.scanAt
  settleAt := h.settleAt
  phase := by
    rw [notices_push, phase_concat, h.phase, he]
    rfl
  faithful := h.faithful.push hon

/-- The settle alarm makes the context sound. -/
theorem sound [World ω] (h : Announced awaitingConfig c) (w : ω) {at' : Option Instant}
    (hat : at'.isSome = awaitingConfig) :
    Sound { c with world := w, loop := { c.loop with settleAt := at' } } where
  alarms :=
    { scan := by simp [h.scanAt, h.isSome]
      settle := by
        obtain ⟨conn, hconn, hawaiting⟩ := Option.map_eq_some_iff.mp h.conn
        simp [hconn, hawaiting, hat]
      restore := fun hnone => by
        have hsome := h.isSome
        rw [hnone] at hsome
        cases hsome }
  phase := by
    have hsome := h.isSome
    rw [hsome]
    exact h.phase
  faithful := h.faithful.of_view rfl

end Announced

namespace Watch
open Prog
variable {α : Type} {c : Ctx ω}

/-- A method ends in a sound context however it ends. -/
def sound : Except Stop α → Ctx ω → Prop := post (fun _ => Sound) fun e c' => e.ends = true ∧ Sound c'

theorem setConfig_sound {β : Type} {config : PinConfig} {f : Unit → Watch ω β}
    {Q : Except Stop β → Ctx ω → Prop} (h : Faithful c)
    (hok : (f ()).wp Q { c with loop := c.loop.setConfig config }) :
    (setConfig config >>= f).wp Q c := by
  rw [wp_bind, setConfig, loop_bind]
  exact (indexed_bind h.inRange _).mpr hok

variable [World ω] {conn : Connection}

/-- Losing the connection tells so and starts to scan. -/
theorem sound_lost (error : Error) (h : Sound c) : (lost error).wp sound c := by
  unfold lost
  rw [loop_bind]
  rcases hconn : c.loop.conn with _ | conn
  · exact h
  · have hp := h.phase
    rw [hconn] at hp
    simp only [Option.isSome_some, if_true, setLoop_bind, emit_bind, instant_bind, wp_setLoop]
    refine ⟨⟨?_, ?_, ?_⟩, ?_, (h.faithful.push (rfl : (Event.disconnected error).onOff = [])).of_view ?_⟩
    · simp [Ctx.push, WatchLoop.dropConnection, hconn]
    · simp [Ctx.push, WatchLoop.dropConnection, hconn]
    · simp [Ctx.push, WatchLoop.dropConnection, hconn]
    · rw [notices_push, phase_concat, hp]
      simp [Ctx.push, Event.notice, Phase.next, WatchLoop.dropConnection, hconn]
    · simp [Ctx.view, Ctx.push, WatchLoop.dropConnection, hconn]

/-- Writing a pin configuration starts to await CONFIG_CHANGED. -/
theorem sound_wrote (found config : PinConfig) (h : Sound c) (hconn : c.loop.conn.isSome = true) :
    (wrote found config).wp (post (fun _ => Sound) fun _ _ => False) c := by
  obtain ⟨conn, hconn⟩ := Option.isSome_iff_exists.mp hconn
  refine setConfig_sound h.faithful ?_
  rw [setLoop_bind, instant_bind, setLoop_bind]
  have hs := h.setConfig config
  have hconn' : (c.loop.setConfig config).conn = some conn := hconn
  have hsound : ∀ (w : ω) (at' : Instant), Sound { c with
      world := w
      loop := { c.loop.setConfig config with
        conn := (c.loop.setConfig config).conn.map fun conn => { conn with awaitingConfig := true }
        settleAt := some at' } } := fun w at' =>
    ⟨⟨by simpa using hs.alarms.scan, by simp [hconn'], by simp [hconn']⟩, hs.phase.trans (by simp),
      hs.faithful.of_view rfl⟩
  rw [wp_only, wp_emit]
  refine ⟨fun _ => (hsound _ _).push (by simp [hconn']) rfl rfl, fun _ => hsound _ _⟩

omit [World ω] in
theorem sound_of_post {m : Watch ω α} (h : m.wp (post (fun _ => Sound) fun _ _ => False) c) : m.wp sound c :=
  wp_mono h fun r _ hr => by
    cases r with
    | ok _ => exact hr
    | error _ => exact hr.elim

/-- Writing the target back ends in a sound context on every path: the device may be lost at both
    accesses. -/
theorem sound_restoreTarget (h : Sound c) : restoreTarget.wp sound c := by
  unfold restoreTarget
  rw [loop_bind]
  split
  · next target conn htarget hconn =>
    simp only [setLoop_bind, instant_bind]
    have h1 : Sound { c with
        world := (World.instant c.world).2
        loop := { c.loop with restoreAt := none, lastRestore := some (World.instant c.world).1 } } :=
      (h.setRestoreAt fun _ => rfl).of_same ⟨rfl, rfl, rfl, rfl, rfl⟩ rfl
    refine wp_ask conn hconn Device.Tame.getPinConfig (fun read s _ => ?_)
      (fun e s _ => sound_lost e (h1.withDevice hconn s)) fun s => ⟨rfl, h1.withDevice hconn s⟩
    have h2 := h1.withDevice hconn s
    refine setConfig_sound h2.faithful ?_
    have h3 := h2.setConfig read.config
    split
    · exact h3
    refine wp_ask _ rfl (Device.Tame.setPinConfig target) (fun _ s' _ => ?_) (fun e s' _ => ?_)
      fun s' => ⟨rfl, h3.withDevice rfl s'⟩
    · have h4 := h3.withDevice rfl s'
      simp only [setLoop_bind, loop_bind, emit_bind]
      refine sound_of_post (sound_wrote _ _ (Sound.push ?_ rfl rfl rfl) rfl)
      exact h4.of_same ⟨rfl, rfl, rfl, rfl, rfl⟩ rfl
    · have h4 := h3.withDevice rfl s'
      split
      · next heq => cases heq
      · exact ⟨rfl, h4⟩
      · rw [instant_bind]
        exact (h4.world _).setRestoreAt fun hnone => by cases hnone
      · exact sound_lost _ h4
  · exact h

theorem sound_configChanged (h : Sound c) (hconn : c.loop.conn = some conn) : configChanged.wp sound c := by
  unfold configChanged
  have hdevice := h.withDevice hconn
  refine wp_ask conn hconn Device.Tame.getPinConfig (fun read s _ => ?_)
    (fun e s _ => sound_lost e (hdevice s))
    fun s => ⟨rfl, hdevice s⟩
  rw [loop_bind]
  refine setConfig_sound (hdevice s).faithful ?_
  have h1 := (hdevice s).setConfig read.config
  rw [loop_bind]
  split
  · split
    · exact h1.push rfl rfl rfl
    · exact h1
  · split
    · exact h1
    split
    · exact sound_restoreTarget h1
    · rw [instant_bind]
      dsimp only
      split
      · rw [instant_bind]
        exact ((h1.world _).world _).setRestoreAt fun hnone => by cases hnone
      · exact sound_restoreTarget (h1.world _)

/-- A context with a connected device. -/
structure Living (c : Ctx ω) : Prop where
  conn : c.loop.conn.isSome = true
  alarms : Alarms c.loop
  phase : phase (notices c.emitted) = some ⟨true, c.loop.everConnected⟩

theorem absorbs_living : Absorbs (Living (ω := ω)) where
  known _ h := ⟨h.conn, h.alarms.of_same ⟨rfl, rfl, rfl, rfl, rfl⟩, h.phase⟩
  instant h := ⟨h.conn, h.alarms, h.phase⟩
  systemTime h := ⟨h.conn, h.alarms, h.phase⟩
  push {c event} he h := by
    refine ⟨h.conn, h.alarms.of_same ⟨rfl, rfl, rfl, rfl, rfl⟩, ?_⟩
    have hwhile : event.notice = .whileConnected := by cases event <;> first | rfl | cases he
    rw [notices_push, phase_concat, h.phase, hwhile]
    rfl
  absorbed _ h := ⟨h.conn, h.alarms, h.phase⟩

theorem sound_absorb (report : StatusReport) (h : Sound c) (hconn : c.loop.conn.isSome = true)
    (hclock : Clocked c) : (absorb report).wp sound c := by
  have hp := h.phase
  rw [hconn] at hp
  have hliving := absorbs_living.absorb report c ⟨hconn, h.alarms, hp⟩
  have hfaithful := wp_absorb report hconn hclock h.faithful
  unfold wp at *
  rcases hexec : exec (absorb report) c with ⟨e | a, c'⟩ <;> rw [hexec] at hliving hfaithful
  · exact hfaithful.elim
  · exact ⟨hliving.alarms, by rw [hliving.conn]; exact hliving.phase, hfaithful⟩

/-- A status report is handled in a sound context up to the end, or until the device is lost while a
    CONFIG_CHANGED is followed. -/
theorem sound_status (report : StatusReport) (at' : Instant) (missed : ℕ) (h : Sound c)
    (hconn : c.loop.conn = some conn) : (status report at' missed).wp sound c := by
  unfold status
  rw [loop_bind, connection_bind hconn, setConn_bind]
  refine wp_then (R := fun _ c' => Sound c' ∧ Clocked c' ∧ c'.loop.conn.isSome = true) ?_ ?_
  · have hclock : ∀ conn' : Connection, conn'.clock = conn.clock.add at' report.timestampUs →
        conn'.clock.cur.isSome = true := fun conn' h' => by rw [h']; exact DeviceClock.cur_add _ _ _
    have hscan : c.loop.scanAt.isSome = false := by rw [h.alarms.scan, hconn]; rfl
    have hsettle : c.loop.settleAt.isSome = conn.awaitingConfig := by rw [h.alarms.settle, hconn]; rfl
    have hphase := h.phase
    rw [hconn] at hphase
    rw [wp_only]
    constructor
    · intro hbit
      refine (wp_setLoop _ _).mpr
        ⟨⟨⟨hscan, ?_, fun hnone => by cases hnone⟩, hphase, h.faithful.of_view rfl⟩,
        fun _ hc' => ?_, rfl⟩
      · rw [Option.any_some, hbit, Bool.not_true, Bool.and_false]
        rfl
      · cases hc'; exact hclock _ rfl
    · intro hbit
      refine ⟨⟨⟨hscan, ?_, fun hnone => by cases hnone⟩, hphase, h.faithful.of_view rfl⟩,
        fun _ hc' => ?_, rfl⟩
      · rw [Option.any_some, Bool.not_eq_true _ |>.mp hbit, Bool.not_false, Bool.and_true]
        exact hsettle
      · cases hc'; exact hclock _ rfl
  rintro _ c1 ⟨h1, hclock1, hconn1⟩
  rw [emit_bind]
  refine wp_then (R := fun _ c' => Sound c' ∧ Clocked c' ∧ c'.loop.conn.isSome = true) ?_ ?_
  · have h2 : Sound (c1.push (.statusReceived report missed (c.loop.onOff report))) := h1.push hconn1 rfl rfl
    rw [wp_only, wp_emit]
    exact ⟨fun _ => ⟨h2.push hconn1 rfl rfl, hclock1, hconn1⟩, fun _ => ⟨h2, hclock1, hconn1⟩⟩
  rintro _ c2 ⟨h2, hclock2, hconn2⟩
  refine wp_seq (R := fun r c' => sound r c' ∧ Clocked c') ?_ (fun _ c3 h3 => ?_) fun _ _ h3 => h3.1
  · obtain ⟨conn2, hconn2⟩ := Option.isSome_iff_exists.mp hconn2
    rw [wp_only]
    exact ⟨fun _ => ⟨sound_configChanged h2 hconn2, calm_clocked.configChanged c2 hclock2⟩,
      fun _ => ⟨h2, hclock2⟩⟩
  rw [loop_bind]
  split
  · exact h3.1
  · next hconn3 =>
    split
    · exact h3.1
    · exact sound_absorb report h3.1 (by rw [hconn3]; rfl) h3.2

theorem sound_received (data : List U8) (at' : Instant) (h : Sound c) (hconn : c.loop.conn = some conn) :
    (received data at').wp sound c := by
  unfold received
  split
  · exact h
  split
  · exact h
  · rw [connection_bind hconn, setConn_bind]
    refine sound_status _ _ _ (h.of_same ⟨?_, rfl, rfl, rfl, rfl⟩ rfl) rfl
    rw [hconn]
    rfl

/-- The snapshot may lose the device, but a rejected write that stops the watcher elsewhere does not. -/
theorem sound_snapshot (h : Sound c) (hconn : c.loop.conn = some conn) : snapshot.wp sound c := by
  unfold snapshot
  have hdevice := h.withDevice hconn
  refine wp_ask conn hconn Device.Tame.requestStatus (fun report s _ => ?_)
    (fun e s _ => sound_lost e (hdevice s))
    fun s => ⟨rfl, hdevice s⟩
  refine (connection_bind rfl _).mpr ?_
  rw [setConn_bind, update_bind, instant_bind, wp_bind, wp_catching]
  refine wp_mono (sound_status report _ 0 ?_ rfl) fun r c' h' => ?_
  · exact (hdevice s).of_same ⟨rfl, rfl, rfl, rfl, rfl⟩ rfl
  · rcases r with (e | e | _ | _) | _
    · cases h'.1
    · exact h'.2
    · cases h'.1
    · exact h'
    · exact h'

/-! ### Connecting -/

theorem sound_idle (h : Sound c) (hconn : c.loop.conn = none) :
    Idle { c with loop := { c.loop with scanAt := none } } where
  conn := hconn
  scanAt := rfl
  restoreAt := h.alarms.restore hconn
  settleAt := by
    have hsettle := h.alarms.settle
    rw [hconn] at hsettle
    exact Option.not_isSome_iff_eq_none.mp (by rw [hsettle]; decide)
  phase := by
    have hp := h.phase
    rw [hconn] at hp
    exact hp
  faithful := h.faithful.of_view rfl

/-- The next attempt is made later. -/
theorem sound_scanLater (h : Idle c) : scanLater.wp (post (fun _ => Sound) fun _ _ => False) c := by
  unfold scanLater
  rw [instant_bind, wp_setLoop]
  refine ⟨⟨?_, ?_, fun _ => h.restoreAt⟩, ?_, h.faithful.of_view rfl⟩
  · simp [h.conn]
  · simp [h.conn, h.settleAt]
  · exact h.phase.trans (by simp [h.conn])

theorem idle_failed (error : Error) (h : Idle c) :
    (failed error).wp (post (fun _ => Idle) fun _ _ => False) c := by
  unfold failed
  refine wp_then (R := fun _ => Idle) ?_ fun _ c1 h1 => ?_
  · refine (wp_setLoop _ _).mpr (h.of_same ?_ ?_) <;> split <;> first | rfl | exact ⟨rfl, rfl, rfl, rfl, rfl⟩
  rw [setLoop_bind, loop_bind]
  have h2 : Idle { c1 with loop := { c1.loop with failures := c1.loop.failures + 1 } } :=
    h1.of_same ⟨rfl, rfl, rfl, rfl, rfl⟩ rfl
  split
  · have hp := h2.phase
    refine (wp_emit _ _).mpr ⟨h2.conn, h2.scanAt, h2.restoreAt, h2.settleAt, ?_, h2.faithful.push rfl⟩
    rw [notices_push, phase_concat, hp, Option.bind_some]
    rfl
  · exact h2

/-- What `connect` hands to its caller: a sound context, one where nothing is connected when the attempt
    failed, and no panic. -/
def attempted : Except Stop Unit → Ctx ω → Prop :=
  post (fun _ => Sound) fun e c' => e ≠ .panicked ∧ Accepted c' ∧ (e.toError.isSome = true → Idle c')

omit [World ω] in
theorem attempted_of_sound {m : Watch ω Unit} (h : m.wp sound c) : m.wp attempted c :=
  wp_mono h fun r _ hr => by
    rcases r with (_ | _ | _ | _) | _
    · cases hr.1
    · exact ⟨by simp, hr.2.accepted, fun he => by cases he⟩
    · cases hr.1
    · exact ⟨by simp, hr.2.accepted, fun he => by cases he⟩
    · exact hr

theorem idle_useDevice (device : Device) {m : Device.Io ω α} (hm : Device.Tame m) (h : Idle c) :
    (useDevice device m).wp (post (fun _ => Idle) fun e c' => e ≠ .panicked ∧ Idle c') c := by
  have hm := hm (device, c.world)
  have hworld : ∀ w, Idle { c with world := w } := fun w => h.of_same ⟨rfl, rfl, rfl, rfl, rfl⟩ rfl
  unfold wp
  simp only [Prog.exec, useDevice, ExceptT.run, StateT.run]
  unfold wp at hm
  simp only [Prog.exec, ExceptT.run, StateT.run] at hm
  split
  · exact hworld _
  · next heq =>
    rw [heq] at hm
    refine ⟨?_, hworld _⟩
    rintro rfl
    rcases hm with hm | hm <;> cases hm

/-- A new connection is announced and then either awaits CONFIG_CHANGED or is asked for its state. -/
theorem sound_connected (entry : DeviceEntry) (info : DeviceInfo) (device : Device) (found : PinConfig)
    (driven : List U8) (awaitingConfig : Bool) (h : Idle c) :
    (connected entry info device found driven awaitingConfig).wp sound c := by
  unfold connected
  rw [setConn_bind, setLoop_bind, loop_bind, setLoop_bind]
  generalize hloop : ({ c.loop.resetFailures with
    conn := some ⟨device, .empty, none, none, awaitingConfig⟩, everConnected := true } : WatchLoop) = l
  have hopened : Faithful { c with loop := l } := h.faithful.of_view (by rw [← hloop]; rfl)
  have hannounced : Announced awaitingConfig (({ c with loop := l.setConfig found } : Ctx ω).push
      (.connected entry.serial entry.path info found c.loop.everConnected)) := by
    refine ⟨by rw [← hloop]; rfl, ?_, ?_, ?_, (stable_faithful.setConfig found hopened).push rfl⟩
    · rw [← hloop]; exact h.scanAt
    · rw [← hloop]; exact h.settleAt
    · rw [notices_push, phase_concat, h.phase, ← hloop]
      simp [Event.notice, Phase.next, Ctx.push, WatchLoop.setConfig, WatchLoop.retain]
  subst hloop
  refine setConfig_sound hopened ?_
  rw [emit_bind]
  refine wp_then (R := fun _ => Announced awaitingConfig) ?_ fun _ c1 h1 => ?_
  · split
    · exact (wp_emit _ _).mpr (hannounced.push rfl rfl)
    · exact (wp_only _ _).mpr ⟨fun _ => (wp_emit _ _).mpr (hannounced.push rfl rfl), fun _ => hannounced⟩
  · obtain ⟨conn, hconn⟩ := Option.isSome_iff_exists.mp h1.isSome
    split
    · next hawaiting =>
      rw [instant_bind, wp_setLoop]
      exact h1.sound _ hawaiting.symm
    · next hawaiting =>
      have hsettle : c1.loop.settleAt.isSome = awaitingConfig := by
        rw [h1.settleAt, Bool.not_eq_true _ |>.mp hawaiting]
        rfl
      exact sound_snapshot (h1.sound c1.world hsettle) hconn

omit [World ω] in
theorem attempted_error {e : Stop} (he : e ≠ .panicked) (h : Idle c) : attempted (.error e) c :=
  ⟨he, h.accepted, fun _ => h⟩

theorem attempted_connect (entry : DeviceEntry) (h : Idle c) : (connect entry).wp attempted c := by
  have hsame : ∀ {c1 : Ctx ω} (w : ω) (info : Option DeviceInfo), Idle c1 →
      Idle { c1 with world := w, loop := { c1.loop with info } } := fun w info h1 =>
    h1.of_same ⟨rfl, rfl, rfl, rfl, rfl⟩ rfl
  unfold connect
  rw [wp_bind, wp_call, post_ok]
  have hopen := hsame (World.openDevice entry c.world).2 c.loop.info h
  refine wp_seq (R := post (fun _ => Idle) fun e c' => e ≠ .panicked ∧ Idle c') ?_ (fun _ c1 h1 => ?_)
    fun e c1 h1 => attempted_error h1.1 h1.2
  · cases (World.openDevice entry c.world).1 with
    | ok _ => exact hopen
    | error _ => exact ⟨by simp, hopen⟩
  rw [wp_bind, wp_call, post_ok]
  refine wp_seq (idle_useDevice _ Device.Tame.readInfo (hsame (World.seed c1.world).2 c1.loop.info h1)) ?_
    fun e c2 h2 => attempted_error h2.1 h2.2
  rintro ⟨info, device⟩ c2 h2
  rw [setLoop_bind]
  refine wp_seq (idle_useDevice _ Device.Tame.getPinConfig (hsame c2.world (some info) h2)) ?_
    fun e c3 h3 => attempted_error h3.1 h3.2
  rintro ⟨read, device⟩ c3 h3
  rw [loop_bind]
  split
  · exact attempted_of_sound (sound_connected _ _ _ _ _ _ h3)
  split
  · exact attempted_of_sound (sound_connected _ _ _ _ _ _ h3)
  · next target _ _ =>
    rw [wp_bind, wp_result]
    refine wp_mono (idle_useDevice _ (Device.Tame.setPinConfig target) h3) fun r c4 h4 => ?_
    rcases r with (e | _ | _ | _) | ⟨_, device⟩
    · dsimp only [caught, Stop.toError, post_ok]
      split
      · exact attempted_error (by simp) h4.2
      · exact attempted_error (by simp) h4.2
      · next heq => cases heq
    · exact attempted_error h4.1 h4.2
    · exact attempted_error h4.1 h4.2
    · exact attempted_error h4.1 h4.2
    · exact attempted_of_sound (sound_connected _ _ _ _ _ _ h4)

/-- What a turn of the thread hands over: a sound context, or the end without a panic. -/
def turned : Except Stop α → Ctx ω → Prop := post (fun _ => Sound) fun e c' => e ≠ .panicked ∧ Accepted c'

omit [World ω] in
theorem turned_of_sound {m : Watch ω α} (h : m.wp sound c) : m.wp turned c :=
  wp_mono h fun r _ hr => by
    rcases r with (_ | _ | _ | _) | _
    · cases hr.1
    · exact ⟨by simp, hr.2.accepted⟩
    · cases hr.1
    · exact ⟨by simp, hr.2.accepted⟩
    · exact hr

theorem turned_tryConnect (h : Idle c) : tryConnect.wp turned c := by
  have hfailed : ∀ (error : Error) {c1 : Ctx ω}, Idle c1 →
      (failed error >>= fun _ => scanLater).wp turned c1 := fun error c1 h1 =>
    wp_then (idle_failed error h1) fun _ c2 h2 => turned_of_sound (sound_of_post (sound_scanLater h2))
  have h1 : Idle { c with world := (World.devices c.world).2 } := h.of_same ⟨rfl, rfl, rfl, rfl, rfl⟩ rfl
  unfold tryConnect
  rw [wp_bind, wp_call, post_ok]
  dsimp only
  split
  · exact ⟨by simp, h1.accepted⟩
  · exact hfailed _ h1
  · rw [loop_bind]
    split
    · rw [setLoop_bind]
      exact turned_of_sound (sound_of_post (sound_scanLater (h1.of_same ⟨rfl, rfl, rfl, rfl, rfl⟩ rfl)))
    · split
      · exact ⟨by simp, h1.accepted⟩
      rw [setLoop_bind, wp_bind, wp_result]
      refine wp_mono (attempted_connect _ (h1.of_same ⟨rfl, rfl, rfl, rfl, rfl⟩ rfl)) fun r c2 h2 => ?_
      rcases r with (e | _ | _ | _) | _
      · exact hfailed e (h2.2.2 rfl)
      · exact ⟨h2.1, h2.2.1⟩
      · exact ⟨h2.1, h2.2.1⟩
      · exact ⟨h2.1, h2.2.1⟩
      · exact h2

/-! ### The whole loop -/

theorem sound_onDevice {m : Device.Io ω α} (hm : Device.Tame m) (h : Sound c)
    (hconn : c.loop.conn = some conn) :
    (onDevice m).wp (post (fun _ c' => Sound c' ∧ c'.loop.conn.isSome = true) fun e c' =>
      e ≠ .panicked ∧ Sound c') c := by
  refine (wp_onDevice conn hconn m _).mpr (wp_mono (hm (conn.device, c.world)) fun r s hr => ?_)
  cases r with
  | ok _ => exact ⟨h.withDevice hconn s, rfl⟩
  | error e =>
    refine ⟨?_, h.withDevice hconn s⟩
    rintro rfl
    rcases hr with hr | hr <;> cases hr

/-- The application gets the errors of `set_target`; the context is sound whatever they are. -/
theorem sound_setTarget (config : PinConfig) (h : Sound c) :
    (setTarget config).wp (post (fun _ => Sound) fun e c' => e ≠ .panicked ∧ Sound c') c := by
  have hof : ∀ {m : Watch ω Unit} {c : Ctx ω}, m.wp (post (fun _ => Sound) fun _ _ => False) c →
      m.wp (post (fun _ => Sound) fun e c' => e ≠ .panicked ∧ Sound c') c := fun hm =>
    wp_mono hm fun r _ hr => by
      cases r with
      | ok _ => exact hr
      | error _ => exact hr.elim
  unfold setTarget
  refine wp_seq (R := post (fun _ => Sound) fun e c' => e ≠ .panicked ∧ Sound c') ?_ (fun _ c1 h1 => ?_)
    fun _ _ h1 => h1
  · unfold checkTarget
    rw [loop_bind]
    split
    · exact h
    · dsimp only
      split
      · exact ⟨by simp, h⟩
      · exact h
  rw [loop_bind, setLoop_bind, loop_bind]
  have h2 : Sound { c1 with loop := { c1.loop with target := some config } } :=
    h1.of_same ⟨rfl, rfl, rfl, rfl, rfl⟩ rfl
  split
  · exact h2
  next conn hconn =>
  rw [setLoop_bind]
  refine wp_seq (sound_onDevice Device.Tame.getPinConfig (h2.setRestoreAt fun _ => rfl) hconn) ?_
    fun _ _ h3 => h3
  rintro read c3 ⟨h3, hconn3⟩
  obtain ⟨conn3, hconn3⟩ := Option.isSome_iff_exists.mp hconn3
  refine setConfig_sound h3.faithful ?_
  have h4 := h3.setConfig read.config
  split
  · exact h4
  refine wp_ask conn3 hconn3 (Device.Tame.setPinConfig config) (fun _ s' _ => ?_) (fun e s' _ => ?_)
    fun s' => ⟨by simp, h4.withDevice hconn3 s'⟩
  · exact hof (sound_wrote _ _ (h4.withDevice hconn3 s') rfl)
  · have h5 := h4.withDevice hconn3 s'
    split
    · next heq => cases heq
    · rw [setLoop_bind]
      exact ⟨by simp, h5.of_same ⟨rfl, rfl, rfl, rfl, rfl⟩ rfl⟩
    · rw [instant_bind, setLoop_bind]
      exact ⟨by simp, (h5.world _).setRestoreAt fun hnone => by cases hnone⟩
    · exact ⟨by simp, h5⟩

theorem sound_serve (request : Request) (h : Sound c) : (serve request).wp sound c := by
  have hreply : ∀ {m : Watch ω Unit}, m.wp (post (fun _ => Sound) fun e c' => e ≠ .panicked ∧ Sound c') c →
      (result m >>= fun reply => Prog.update fun c =>
        { c with replies := c.replies ++ [(request, reply)] }).wp
        sound c := fun hm => by
    rw [wp_bind, wp_result]
    refine wp_mono hm fun r c' hr => ?_
    rcases r with (_ | _ | _ | _) | _
    · exact hr.2.of_same ⟨rfl, rfl, rfl, rfl, rfl⟩ rfl
    · exact ⟨rfl, hr.2⟩
    · exact absurd rfl hr.1
    · exact ⟨rfl, hr.2⟩
    · exact hr.of_same ⟨rfl, rfl, rfl, rfl, rfl⟩ rfl
  refine hreply ?_
  cases request with
  | setTargetPins config => exact sound_setTarget config h
  | setOutputs levels =>
    dsimp only
    rw [loop_bind]
    split
    · exact ⟨by simp, h⟩
    · next conn hconn =>
      refine wp_mono (sound_onDevice (Device.Tame.setOutputs levels) h hconn) fun r c' hr => ?_
      cases r with
      | ok _ => exact hr.1
      | error _ => exact hr

theorem turned_attend (h : Sound c) : attend.wp turned c := by
  unfold attend
  rw [instant_bind, loop_bind]
  have h1 : Sound { c with world := (World.instant c.world).2 } := h.world _
  have hdue : ∀ {at' : Option Instant} {now : Instant}, due at' now = true → at'.isSome = true :=
    fun hd => by
      obtain ⟨_, rfl, -⟩ := (Option.any_eq_true _ _).mp hd
      rfl
  split
  · next hscan =>
    rw [setLoop_bind]
    have hconn := h.alarms.scan
    rw [hdue hscan] at hconn
    exact turned_tryConnect (sound_idle h1 (by simpa using hconn))
  split
  · rw [setLoop_bind]
    exact turned_of_sound (sound_restoreTarget (h1.setRestoreAt fun _ => rfl))
  split
  · next hsettle =>
    rw [setLoop_bind]
    have hawaiting := h.alarms.settle
    rw [hdue hsettle] at hawaiting
    obtain ⟨conn, hconn, -⟩ := (Option.any_eq_true _ _).mp hawaiting.symm
    split
    · next hnone => cases hconn.symm.trans hnone
    · rw [setConn_bind]
      refine turned_of_sound (sound_snapshot ⟨⟨?_, rfl, fun hnone => by cases hnone⟩, ?_,
        h.faithful.of_view rfl⟩ rfl)
      · have hscan := h.alarms.scan
        rw [hconn] at hscan
        exact hscan
      · have hp := h.phase
        rw [hconn] at hp
        exact hp
  split
  · exact h1
  · next hread =>
    have hsome : c.loop.conn.isSome = true :=
      Option.isSome_iff_ne_none.mpr (by simpa using (not_or.mp hread).2)
    obtain ⟨conn, hconn⟩ := Option.isSome_iff_exists.mp hsome
    have hdevice := h1.withDevice hconn
    refine turned_of_sound (wp_ask conn hconn (Device.Tame.readRaw _) (fun data s _ => ?_)
      (fun e s _ => sound_lost e (hdevice s)) fun s => ⟨rfl, hdevice s⟩)
    split
    · next heq => cases heq
    · exact hdevice s
    · rw [instant_bind]
      exact sound_received _ _ ((hdevice s).world _) rfl

theorem turned_iterate (h : Sound c) : iterate.wp turned c := by
  have hsame : ∀ {l : WatchLoop} {shared serving}, SameLife c.loop l → l.known = c.loop.known →
      l.config = c.loop.config → l.activeLow = c.loop.activeLow →
      Sound { c with loop := l, shared, serving } := fun hs hknown hconfig hlow =>
    h.of_same hs (by simp [Ctx.view, hknown, hconfig, hlow])
  unfold iterate
  rw [gets_bind]
  split
  · rw [update_bind]
    refine turned_of_sound (wp_seq (sound_serve _ ?_) (fun _ _ h2 => h2) fun _ _ h2 => h2)
    exact hsame ⟨rfl, rfl, rfl, rfl, rfl⟩ rfl rfl rfl
  · unfold deliver takeRequests
    rw [update_bind, gets_bind]
    split
    · exact hsame ⟨rfl, rfl, rfl, rfl, rfl⟩ rfl rfl rfl
    rw [update_bind, gets_bind]
    split
    · exact hsame ⟨rfl, rfl, rfl, rfl, rfl⟩ rfl rfl rfl
    · refine wp_seq (turned_attend ?_) (fun _ _ h2 => h2) fun _ _ h2 => h2
      exact hsame ⟨rfl, rfl, rfl, rfl, rfl⟩ rfl rfl rfl

end Watch

namespace Watcher
variable [World ω]

/-- What a step of a watcher keeps: its notifications came in a possible order, and while the thread runs
    its context is sound. -/
structure Lives (w : Watcher ω) : Prop where
  accepted : Accepted w.ctx
  sound : w.alive = true → Sound w.ctx

theorem lives_turn {w : Watcher ω} (h : Lives w) : Lives w.turn := by
  unfold turn
  split
  · next halive =>
    have hturn := Watch.turned_iterate (h.sound halive)
    rcases hexec : Watch.iterate.exec w.ctx with ⟨(e | e | _ | _) | (_ | _), ctx⟩ <;>
      rw [Prog.wp_of_exec hexec] at hturn
    · exact ⟨hturn.2, by simp⟩
    · exact ⟨hturn.2, by simp⟩
    · exact ⟨hturn.2, by simp⟩
    · exact ⟨hturn.2, by simp⟩
    · have hsound : Sound ctx := hturn
      exact ⟨hsound.accepted, by simp⟩
    · have hsound : Sound ctx := hturn
      exact ⟨hsound.accepted, fun _ => hsound⟩
  · exact h

theorem lives_step (w : Watcher ω) (input : Input) (h : Lives w) : Lives (w.step input) := by
  have hshared : ∀ shared, Lives { w with ctx := { w.ctx with shared } } := fun shared =>
    ⟨h.accepted, fun halive => (h.sound halive).of_same ⟨rfl, rfl, rfl, rfl, rfl⟩ rfl⟩
  have hcall : ∀ request, Lives { w with ctx := w.ctx.call request } := fun request => by
    unfold Ctx.call
    split
    · exact h
    · exact hshared _
  cases input with
  | turn => exact lives_turn h
  | take => exact hshared _
  | setTargetPins config =>
    simp only [step]
    split
    · exact h
    · exact hcall _
  | setOutputs levels => exact hcall _
  | close => exact hshared _

theorem lives_start (o : WatchOptions) (w : ω) : Lives (start o w) where
  accepted := rfl
  sound _ := by
    refine ⟨⟨rfl, rfl, fun _ => rfl⟩, rfl, ?_, ?_, ?_, ?_⟩
    · intro gpio on hon
      cases hon
    · intro gpio hgpio
      cases hgpio
    · intro x hx
      cases hx
    · intro a ha
      cases ha

/-- The life cycle of a watcher: its notifications come in a possible order, and while the thread runs the
    alarms fit the connection and the next iteration does not panic. -/
def InOrder (w : Watcher ω) : Prop :=
  (phase (notices w.ctx.emitted)).isSome = true ∧
  (w.alive = true → Alarms w.ctx.loop ∧
    phase (notices w.ctx.emitted) = some ⟨w.ctx.loop.conn.isSome, w.ctx.loop.everConnected⟩ ∧
    (Watch.iterate.exec w.ctx).1 ≠ .error .panicked)

/-- Every watcher keeps the life cycle, for every behaviour of the device. -/
theorem life_cycle (o : WatchOptions) (w : ω) (inputs : List Input) :
    (Lib.run step (start o w) inputs).InOrder := by
  have h : Lives (Lib.run step (start o w) inputs) := Lib.run_preserves lives_step inputs (lives_start o w)
  refine ⟨h.accepted, fun halive => ⟨(h.sound halive).alarms, (h.sound halive).phase, fun hpanic => ?_⟩⟩
  have hturn := Watch.turned_iterate (h.sound halive)
  rw [Prog.wp_of_exec (Prod.ext hpanic rfl)] at hturn
  exact hturn.1 rfl

end Watcher

end Hidpin.Host
