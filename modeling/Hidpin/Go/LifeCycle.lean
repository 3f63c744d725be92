import Hidpin.Go.Watch
import Hidpin.Host.LifeCycle

/-! The life cycle of the watch loop of the Go library. A method takes a sound state to a sound one, and one
    that writes the target back may return the rejection of it. The snapshot of a new connection returns it
    to an attempt to connect, which then scans again with the device connected. That is the only way out of
    the life cycle. -/

namespace Hidpin.Go
open Firmware (Gpio gpioCount)
open Host (DeviceEntry Notice OsError Phase Script World contains phase phase_concat)
open Lib (Prog)

/-! ### The answers -/

section Answers
variable {ω : Type} [World ω]

/-- Whether the library returns a `PinConfigRejectedError`. -/
def Stop.isRejected : Stop → Bool
  | .error (.pinConfigRejected _ _ _) => true
  | _ => false

/-- Whether a write is rejected, by the check of the library or by the device. -/
def writeRejected (config : PinConfig) (s : Device × ω) : Bool :=
  match (Device.setPinConfig config).exec s with
  | (.error e, _) => e.isRejected
  | (.ok _, _) => false

theorem writeRejected_ok {config : PinConfig} {s s' : Device × ω} {report : PinConfigReport}
    (h : (Device.setPinConfig config).exec s = (.ok report, s')) : writeRejected config s = false := by
  rw [writeRejected, h]

theorem writeRejected_error {config : PinConfig} {s s' : Device × ω} {e : Stop}
    (h : (Device.setPinConfig config).exec s = (.error e, s')) : writeRejected config s = e.isRejected := by
  rw [writeRejected, h]

/-- Whether the answers to `restoreTarget` are another configuration and then a rejected write. -/
def restoreRejected (target : PinConfig) (device : Device) (w : ω) : Bool :=
  match Device.getPinConfig.exec (device, (timeNow w).2) with
  | (.ok report, s) => decide (report.config ≠ target) && writeRejected target s
  | (.error _, _) => false

/-- Whether the answers to `configChanged` are another configuration than the target, which is written back
    at once, and then those of `restoreTarget`. -/
def changeRejected (target : Option PinConfig) (lastRestore : Option Time) (device : Device) (w : ω) :
    Bool :=
  match Device.getPinConfig.exec (device, w) with
  | (.ok report, device, w) => target.any fun target =>
    decide (report.config ≠ target ∧ ¬ 0 < restoreInterval - since (timeNow w).1 lastRestore) &&
      restoreRejected target device (timeNow w).2
  | (.error _, _) => false

/-- Whether the answers to the snapshot of a new connection are a status with CONFIG_CHANGED and then those
    of `configChanged`. -/
def snapshotRejected (l : WatchLoop) (w : ω) : Bool := l.conn.any fun conn =>
  match Device.requestStatus.exec (conn.device, w) with
  | (.ok s, device, w) => contains s.reason Host.Reason.configChanged &&
    changeRejected l.target l.lastRestore device (timeNow w).2
  | (.error _, _) => false

end Answers

/-! ### Sound states -/

/-- What an event says of the connection. -/
def Event.notice : Event → Notice
  | .connected _ _ _ _ reconnected => .connected reconnected
  | .disconnected _ => .disconnected
  | .connectFailed _ => .connectFailed
  | _ => .whileConnected

/-- What the emitted notifications say about the connection. -/
def notices (emitted : List Event) : List Notice := emitted.map Event.notice

theorem notices_concat (emitted : List Event) (event : Event) :
    notices (emitted ++ [event]) = notices emitted ++ [event.notice] := by
  simp [notices]

/-- The alarms of the loop: scanning is for a missing device, the settle alarm for a CONFIG_CHANGED that is
    awaited, and the restore alarm for a connected device. -/
structure Alarms (l : WatchLoop) : Prop where
  scan : l.scan.isSome = !l.conn.isSome
  settle : l.settle.isSome = l.conn.any Connection.awaitingConfig
  restore : l.conn = none → l.restore = none

/-- The fields that the alarms, the phase and the known pins are about are the same. -/
structure SameLife (l l' : WatchLoop) : Prop where
  conn : l'.conn.map Connection.awaitingConfig = l.conn.map Connection.awaitingConfig
  scan : l'.scan = l.scan
  restore : l'.restore = l.restore
  settle : l'.settle = l.settle
  everConnected : l'.everConnected = l.everConnected
  known : l'.known = l.known

theorem SameLife.isSome {l l' : WatchLoop} (h : SameLife l l') : l'.conn.isSome = l.conn.isSome := by
  rw [← Option.isSome_map (f := Connection.awaitingConfig), h.conn, Option.isSome_map]

theorem Alarms.of_same {l l' : WatchLoop} (h : Alarms l) (hs : SameLife l l') : Alarms l' where
  scan := by rw [hs.scan, hs.isSome]; exact h.scan
  settle := by
    have hany : ∀ o : Option Connection, o.any Connection.awaitingConfig =
        (o.map Connection.awaitingConfig).any id := fun o => by cases o <;> rfl
    rw [hs.settle, hany, hs.conn, ← hany]
    exact h.settle
  restore hnone := by
    rw [hs.restore]
    refine h.restore (Option.not_isSome_iff_eq_none.mp ?_)
    rw [← hs.isSome, hnone]
    decide

/-- Every known pin is a GPIO. -/
def KnownInRange (l : WatchLoop) : Prop := ∀ gpio, (l.known gpio).isSome = true → gpio.toNat < gpioCount

variable {ω : Type}

/-- The context after a notification. -/
def Ctx.push (c : Ctx ω) (event : Event) : Ctx ω :=
  { c with loop := { c.loop with pending := c.loop.pending ++ [event] }, emitted := c.emitted ++ [event] }

/-- The context after a program on the device of the connection. -/
def Ctx.withDevice (c : Ctx ω) (conn : Connection) (s : Device × ω) : Ctx ω :=
  { c with world := s.2, loop := { c.loop with conn := some { conn with device := s.1 } } }

/-- The notifications came in a possible order. -/
def Accepted (c : Ctx ω) : Prop := (phase (notices c.emitted)).isSome = true

/-- A context between two statements of the loop where nothing is under way. -/
structure Sound (opened : List (WatchLoop × ω)) (c : Ctx ω) : Prop where
  alarms : Alarms c.loop
  phase : phase (notices c.emitted) = some ⟨c.loop.conn.isSome, c.loop.everConnected⟩
  known : KnownInRange c.loop
  opened : c.opened = opened

/-- A context before a device is opened: nothing is connected and no alarm is armed. -/
structure Idle (opened : List (WatchLoop × ω)) (c : Ctx ω) : Prop where
  conn : c.loop.conn = none
  scan : c.loop.scan = none
  restore : c.loop.restore = none
  settle : c.loop.settle = none
  phase : phase (notices c.emitted) = some ⟨false, c.loop.everConnected⟩
  known : KnownInRange c.loop
  opened : c.opened = opened

/-- A context with a new connection that was just told about. -/
structure Announced (opened : List (WatchLoop × ω)) (awaitingConfig : Bool) (c : Ctx ω) : Prop where
  conn : c.loop.conn.map Connection.awaitingConfig = some awaitingConfig
  scan : c.loop.scan = none
  settle : c.loop.settle = none
  phase : phase (notices c.emitted) = some ⟨true, c.loop.everConnected⟩
  known : KnownInRange c.loop
  opened : c.opened = opened

theorem KnownInRange.setConfig {l : WatchLoop} (h : KnownInRange l) (config : PinConfig) :
    KnownInRange (l.setConfig config) := by
  intro gpio hgpio
  refine h gpio ?_
  unfold WatchLoop.setConfig WatchLoop.retain at hgpio
  dsimp only at hgpio
  split at hgpio
  · exact hgpio
  · cases hgpio

section Contexts
variable {opened : List (WatchLoop × ω)} {c c' : Ctx ω}

namespace Sound

theorem accepted (h : Sound opened c) : Accepted c := by rw [Accepted, h.phase]; rfl

theorem of_same (h : Sound opened c) (hs : SameLife c.loop c'.loop) (he : c'.emitted = c.emitted)
    (ho : c'.opened = c.opened) : Sound opened c' where
  alarms := h.alarms.of_same hs
  phase := by rw [he, hs.isSome, hs.everConnected]; exact h.phase
  known := by rw [KnownInRange, hs.known]; exact h.known
  opened := ho.trans h.opened

theorem push (h : Sound opened c) (hconn : c.loop.conn.isSome = true) {event : Event}
    (he : event.notice = .whileConnected) : Sound opened (c.push event) where
  alarms := h.alarms.of_same ⟨rfl, rfl, rfl, rfl, rfl, rfl⟩
  phase := by
    have hp := h.phase
    rw [hconn] at hp
    rw [Ctx.push, notices_concat, phase_concat, hp, he]
    exact congrArg (fun connected => some (Phase.mk connected _)) hconn.symm
  known := h.known
  opened := h.opened

theorem setConfig (h : Sound opened c) (config : PinConfig) :
    Sound opened { c with loop := c.loop.setConfig config } where
  alarms := ⟨h.alarms.scan, h.alarms.settle, h.alarms.restore⟩
  phase := h.phase
  known := h.known.setConfig config
  opened := h.opened

theorem world (h : Sound opened c) (w : ω) : Sound opened { c with world := w } :=
  h.of_same ⟨rfl, rfl, rfl, rfl, rfl, rfl⟩ rfl rfl

theorem setRestore (h : Sound opened c) {alarm : Option Duration}
    (halarm : c.loop.conn = none → alarm = none) :
    Sound opened { c with loop := { c.loop with restore := alarm } } where
  alarms := ⟨h.alarms.scan, h.alarms.settle, halarm⟩
  phase := h.phase
  known := h.known
  opened := h.opened

theorem withDevice (h : Sound opened c) {conn : Connection} (hconn : c.loop.conn = some conn)
    (s : Device × ω) : Sound opened (c.withDevice conn s) :=
  h.of_same ⟨by rw [hconn]; rfl, rfl, rfl, rfl, rfl, rfl⟩ rfl rfl

/-- The record of a connection that is asked for its state. -/
theorem ask (h : Sound opened c) (x : WatchLoop × ω) :
    Sound (opened ++ [x]) { c with opened := c.opened ++ [x] } where
  alarms := h.alarms
  phase := h.phase
  known := h.known
  opened := by rw [h.opened]

end Sound

theorem Idle.accepted (h : Idle opened c) : Accepted c := by rw [Accepted, h.phase]; rfl

/-- What happens between two attempts to open a device arms no alarm. -/
theorem Idle.of_same (h : Idle opened c) (hs : SameLife c.loop c'.loop) (he : c'.emitted = c.emitted)
    (ho : c'.opened = c.opened) : Idle opened c' where
  conn := Option.map_eq_none_iff.mp (by rw [hs.conn, h.conn]; rfl)
  scan := hs.scan.trans h.scan
  restore := hs.restore.trans h.restore
  settle := hs.settle.trans h.settle
  phase := by rw [he, hs.everConnected]; exact h.phase
  known := by rw [KnownInRange, hs.known]; exact h.known
  opened := ho.trans h.opened

namespace Announced
variable {awaitingConfig : Bool}

theorem isSome (h : Announced opened awaitingConfig c) : c.loop.conn.isSome = true := by
  rw [← Option.isSome_map (f := Connection.awaitingConfig), h.conn]
  rfl

theorem push (h : Announced opened awaitingConfig c) {event : Event} (he : event.notice = .whileConnected) :
    Announced opened awaitingConfig (c.push event) where
  conn := h.conn
  scan := h.scan
  settle := h.settle
  phase := by
    rw [Ctx.push, notices_concat, phase_concat, h.phase, he]
    rfl
  known := h.known
  opened := h.opened

/-- The settle alarm makes the context sound. -/
theorem sound (h : Announced opened awaitingConfig c) {alarm : Option Duration}
    (halarm : alarm.isSome = awaitingConfig) :
    Sound opened { c with loop := { c.loop with settle := alarm } } where
  alarms :=
    { scan := by simp [h.scan, h.isSome]
      settle := by
        obtain ⟨conn, hconn, hawaiting⟩ := Option.map_eq_some_iff.mp h.conn
        simp [hconn, hawaiting, halarm]
      restore := fun hnone => by
        have hsome := h.isSome
        rw [hnone] at hsome
        cases hsome }
  phase := by
    have hsome := h.isSome
    rw [hsome]
    exact h.phase
  known := h.known
  opened := h.opened

end Announced

end Contexts

/-! ### The methods -/

namespace Watch
open Lib.Prog
variable {α β : Type} {opened : List (WatchLoop × ω)} {c : Ctx ω} {conn : Connection}

section Access
variable {Q : Except Halt β → Ctx ω → Prop}

theorem loop_bind (f : WatchLoop → Watch ω β) : (loop >>= f).wp Q c ↔ (f c.loop).wp Q c := Iff.rfl

theorem setLoop_bind (g : WatchLoop → WatchLoop) (f : Unit → Watch ω β) :
    (setLoop g >>= f).wp Q c ↔ (f ()).wp Q { c with loop := g c.loop } := Iff.rfl

theorem wp_setLoop (g : WatchLoop → WatchLoop) (Q : Except Halt Unit → Ctx ω → Prop) :
    (setLoop g).wp Q c ↔ Q (.ok ()) { c with loop := g c.loop } := Iff.rfl

theorem setConn_bind (conn : Connection) (f : Unit → Watch ω β) :
    (setConn conn >>= f).wp Q c ↔ (f ()).wp Q { c with loop := { c.loop with conn := some conn } } := Iff.rfl

theorem emit_bind (event : Event) (f : Unit → Watch ω β) :
    (emit event >>= f).wp Q c ↔ (f ()).wp Q (c.push event) := Iff.rfl

theorem wp_emit (event : Event) (Q : Except Halt Unit → Ctx ω → Prop) :
    (emit event).wp Q c ↔ Q (.ok ()) (c.push event) := Iff.rfl

theorem now_bind [World ω] (f : Time → Watch ω β) : (now >>= f).wp Q c ↔
    (f (timeNow c.world).1).wp Q { c with world := (timeNow c.world).2 } := Iff.rfl

theorem update_bind (g : Ctx ω → Ctx ω) (f : Unit → Watch ω β) :
    (update g >>= f).wp Q c ↔ (f ()).wp Q (g c) :=
  Iff.rfl

theorem connection_bind (h : c.loop.conn = some conn) (f : Connection → Watch ω β) :
    (connection >>= f).wp Q c ↔ (f conn).wp Q c := by
  rw [wp_bind, connection, loop_bind, h]
  rfl

theorem wp_onDevice (hconn : c.loop.conn = some conn) (m : Device.Io ω α)
    (Q : Except Halt α → Ctx ω → Prop) : (onDevice m).wp Q c ↔
      m.wp (fun r s => Q (r.mapError Stop.toHalt) (c.withDevice conn s)) (conn.device, c.world) := by
  rw [onDevice, wp_bind, connection, loop_bind, hconn]
  rfl

/-- The call of a device program by a method: its value, its error, or no end. -/
theorem wp_ask {m : Device.Io ω α} {f : Except Error α → Watch ω β} (hconn : c.loop.conn = some conn)
    (hok : ∀ a s, m.exec (conn.device, c.world) = (.ok a, s) → (f (.ok a)).wp Q (c.withDevice conn s))
    (herror : ∀ e s, m.exec (conn.device, c.world) = (.error (.error e), s) →
      (f (.error e)).wp Q (c.withDevice conn s))
    (hhang : ∀ s, m.exec (conn.device, c.world) = (.error .hangs, s) →
      Q (.error .hangs) (c.withDevice conn s)) :
    (result (onDevice m) >>= f).wp Q c := by
  rw [wp_bind, result, wp_catching, wp_onDevice hconn]
  rcases hexec : m.exec (conn.device, c.world) with ⟨(e | _) | a, s⟩ <;> refine (wp_of_exec hexec _).mpr ?_
  · exact herror e s hexec
  · exact hhang s hexec
  · exact hok a s hexec

end Access

/-- A method ends with a value and in a sound context. -/
def sound (opened : List (WatchLoop × ω)) : Except Halt α → Ctx ω → Prop :=
  post (fun _ => Sound opened) fun _ _ => False

/-- A method that may write the target back ends in a sound context, or never. It returns an error only with
    the device connected, and exactly when the write is rejected. -/
def ends (opened : List (WatchLoop × ω)) (rejected : Bool) : Except Halt α → Ctx ω → Prop :=
  post (fun _ c => rejected = false ∧ Sound opened c) fun e c => Sound opened c ∧
    (e = .hangs ∧ rejected = false ∨ (∃ err, e = .error err) ∧ rejected = true ∧ c.loop.conn.isSome = true)

theorem ends_of_sound {m : Watch ω α} {rejected : Bool} (h : m.wp (sound opened) c) (hr : rejected = false) :
    m.wp (ends opened rejected) c :=
  wp_mono h fun r _ hc => by
    cases r with
    | ok _ => exact ⟨hr, hc⟩
    | error _ => exact hc.elim

/-- A method ends in a sound context, with a value or an error, or never. -/
def kept (opened : List (WatchLoop × ω)) : Except Halt α → Ctx ω → Prop :=
  post (fun _ => Sound opened) fun e c => Sound opened c ∧ (e = .hangs ∨ ∃ err, e = .error err)

theorem kept_of_sound {m : Watch ω α} (h : m.wp (sound opened) c) : m.wp (kept opened) c :=
  wp_mono h fun r _ hc => by
    cases r with
    | ok _ => exact hc
    | error _ => exact hc.elim

theorem kept_of_ends {m : Watch ω α} {rejected : Bool} (h : m.wp (ends opened rejected) c) :
    m.wp (kept opened) c :=
  wp_mono h fun r _ hc => by
    cases r with
    | ok _ => exact hc.2
    | error _ => exact ⟨hc.1, hc.2.imp And.left And.left⟩

theorem setConfig_bind {config : PinConfig} {f : Unit → Watch ω β} {Q : Except Halt β → Ctx ω → Prop}
    (h : KnownInRange c.loop) (hok : (f ()).wp Q { c with loop := c.loop.setConfig config }) :
    (setConfig config >>= f).wp Q c := by
  have hrange : c.loop.knownInRange = true := decide_eq_true h
  rw [wp_bind, setConfig, loop_bind, wp_bind, wp_only]
  refine ⟨fun hbad => ?_, fun _ => hok⟩
  rw [hrange] at hbad
  cases hbad

/-- Losing the connection tells so and starts to scan. -/
theorem sound_lost (err : Error) (h : Sound opened c) : (lost err).wp (sound opened) c := by
  unfold lost
  rw [loop_bind]
  rcases hconn : c.loop.conn with _ | conn
  · exact h
  · have hp := h.phase
    rw [hconn] at hp
    simp only [Option.isSome_some, if_true, setLoop_bind, emit_bind, wp_setLoop]
    refine ⟨⟨?_, ?_, ?_⟩, ?_, ?_, h.opened⟩
    · simp [Ctx.push, WatchLoop.drop, hconn]
    · simp [Ctx.push, WatchLoop.drop, hconn]
    · simp [Ctx.push, WatchLoop.drop, hconn]
    · rw [Ctx.push, notices_concat, phase_concat, hp]
      simp [Event.notice, Phase.next, WatchLoop.drop, hconn]
    · intro gpio hgpio
      simp only [Ctx.push, WatchLoop.drop, hconn, Option.isSome_some, if_true] at hgpio
      exact h.known gpio hgpio

/-- Writing a pin configuration starts to await CONFIG_CHANGED. -/
theorem sound_wrote (found config : PinConfig) (h : Sound opened c) (hconn : c.loop.conn = some conn) :
    (wrote found config).wp (sound opened) c := by
  refine setConfig_bind h.known ?_
  have hs := h.setConfig config
  refine (connection_bind (c := { c with loop := c.loop.setConfig config }) hconn _).mpr ?_
  rw [setConn_bind, setLoop_bind, wp_only, wp_emit]
  have hsound : Sound opened { c with
      loop := { c.loop.setConfig config with
        conn := some { conn with awaitingConfig := true }
        settle := some settleTimeout } } := by
    have hscan := hs.alarms.scan
    have hphase := hs.phase
    rw [show (c.loop.setConfig config).conn = some conn from hconn] at hscan hphase
    exact ⟨⟨hscan, rfl, fun hnone => by cases hnone⟩, hphase, hs.known, h.opened⟩
  exact ⟨fun _ => hsound.push rfl rfl, fun _ => hsound⟩

/-! ### Status reports -/

theorem isActiveLow_bind {gpio : U8} {f : Bool → Watch ω β} {Q : Except Halt β → Ctx ω → Prop}
    (h : gpio.toNat < gpioCount) (hok : ∀ low, (f low).wp Q c) : (isActiveLow gpio >>= f).wp Q c := by
  rw [wp_bind, isActiveLow, loop_bind]
  split
  · exact hok _
  · rw [wp_bind, index, PinConfig.entry, dif_pos h]
    exact hok _

/-- The ON/OFF of the pins of a mask are looked up without a panic. -/
theorem onOff_bind {s : Status} {f : List (U8 × Bool) → Watch ω β} {Q : Except Halt β → Ctx ω → Prop} :
    ∀ {gpios : List U8}, (∀ gpio ∈ gpios, gpio.toNat < gpioCount) → (∀ on, (f on).wp Q c) →
      (onOff s gpios >>= f).wp Q c
  | [], _, hok => hok []
  | gpio :: gpios, h, hok => by
    rw [onOff, bind_assoc]
    refine isActiveLow_bind (h gpio List.mem_cons_self) fun low => ?_
    rw [bind_assoc]
    exact onOff_bind (fun n hn => h n (List.mem_cons_of_mem gpio hn)) fun on => hok _

/-- A sound context with a device. -/
def Living (opened : List (WatchLoop × ω)) (c : Ctx ω) : Prop := Sound opened c ∧ c.loop.conn.isSome = true

/-- A method that keeps the device ends with a value. -/
def living (opened : List (WatchLoop × ω)) : Except Halt α → Ctx ω → Prop :=
  post (fun _ => Living opened) fun _ _ => False

theorem Living.push (h : Living opened c) {event : Event} (he : event.notice = .whileConnected) :
    Living opened (c.push event) := ⟨h.1.push h.2 he, h.2⟩

theorem Living.only {p : Prop} [Decidable p] {event : Event} (h : Living opened c)
    (he : event.notice = .whileConnected) : (only p (emit event)).wp (living opened) c := by
  rw [wp_only, wp_emit]
  exact ⟨fun _ => h.push he, fun _ => h⟩

theorem living_setKnown {gpio : U8} (on : Bool) (hgpio : gpio.toNat < gpioCount) (h : Living opened c) :
    (setKnown gpio on).wp (living opened) c := by
  refine (wp_setLoop _ _).mpr
    ⟨⟨⟨h.1.alarms.scan, h.1.alarms.settle, h.1.alarms.restore⟩, h.1.phase, ?_, h.1.opened⟩, h.2⟩
  intro n hn
  by_cases heq : n = gpio
  · rw [heq]
    exact hgpio
  · refine h.1.known n ?_
    dsimp only at hn
    rwa [Function.update_of_ne heq] at hn

theorem living_absorbEvent (clock : DeviceClock) (s : Status) (e : EdgeEvent) (h : Living opened c) :
    (absorbEvent clock s e).wp (living opened) c := by
  unfold absorbEvent
  rw [loop_bind]
  split
  · exact h
  · next hwas =>
    have hgpio := h.1.known e.gpio (by rw [hwas]; rfl)
    refine isActiveLow_bind hgpio fun low => ?_
    refine wp_then (h.only rfl) fun _ c1 h1 => ?_
    rw [emit_bind]
    exact living_setKnown _ hgpio (h1.push rfl)

theorem living_absorbLevel (s : Status) {gpio : U8} (hgpio : gpio.toNat < gpioCount) (h : Living opened c) :
    (absorbLevel s gpio).wp (living opened) c := by
  unfold absorbLevel
  refine isActiveLow_bind hgpio fun low => ?_
  rw [loop_bind]
  split
  · exact wp_then (living_setKnown _ hgpio h) fun _ _ h1 => h1
  · exact wp_then (h.only rfl) fun _ _ h1 => wp_then (living_setKnown _ hgpio h1) fun _ _ h2 => h2

theorem living_absorbLevels (s : Status) : ∀ (gpios : List U8) {c : Ctx ω},
    (∀ gpio ∈ gpios, gpio.toNat < gpioCount) → Living opened c → (absorbLevels s gpios).wp (living opened) c
  | [], _, _, h => h
  | gpio :: gpios, _, hgpios, h => by
    refine wp_then (living_absorbLevel s (hgpios gpio List.mem_cons_self) h) fun _ _ h1 => ?_
    exact wp_then (living_absorbLevels s gpios (fun n hn => hgpios n (List.mem_cons_of_mem gpio hn)) h1)
      fun _ _ h2 => h2

theorem mem_mask {mask : U32} : ∀ gpio ∈ (maskToGpios mask).map Gpio.toU8, gpio.toNat < gpioCount := by
  intro gpio hgpio
  obtain ⟨n, -, rfl⟩ := List.mem_map.mp hgpio
  exact Host.toNat_toU8 n ▸ n.isLt

theorem living_absorb (s : Status) (h : Living opened c) : (absorb s).wp (living opened) c := by
  unfold absorb
  obtain ⟨conn, hconn⟩ := Option.isSome_iff_exists.mp h.2
  rw [connection_bind hconn]
  refine wp_then (R := fun _ => Living opened) (wp_each (I := fun _ => Living opened)
    (fun e _ _ h1 => living_absorbEvent conn.clock s e h1) s.events h) fun _ c1 h1 => ?_
  refine wp_then (living_absorbLevels s _ mem_mask h1) fun learned c2 h2 => ?_
  rw [setLoop_bind]
  refine Living.only ⟨⟨⟨h2.1.alarms.scan, h2.1.alarms.settle, h2.1.alarms.restore⟩, h2.1.phase, ?_,
    h2.1.opened⟩, h2.2⟩ rfl
  intro n hn
  refine h2.1.known n ?_
  unfold WatchLoop.retain at hn
  dsimp only at hn
  split at hn
  · exact hn
  · cases hn

/-- A sound context with a device that would answer as in the context `c`. -/
structure Asking (opened : List (WatchLoop × ω)) (c : Ctx ω) (device : Device) (c' : Ctx ω) : Prop where
  sound : Sound opened c'
  conn : c'.loop.conn.map Connection.device = some device
  target : c'.loop.target = c.loop.target
  lastRestore : c'.loop.lastRestore = c.loop.lastRestore
  world : c'.world = c.world

namespace Asking
variable {device : Device} {c' : Ctx ω}

theorem isSome (h : Asking opened c device c') : c'.loop.conn.isSome = true := by
  rw [← Option.isSome_map (f := Connection.device), h.conn]
  rfl

theorem push (h : Asking opened c device c') {event : Event} (he : event.notice = .whileConnected) :
    Asking opened c device (c'.push event) :=
  ⟨h.sound.push h.isSome he, h.conn, h.target, h.lastRestore, h.world⟩

theorem only (h : Asking opened c device c') {p : Prop} [Decidable p] {event : Event}
    (he : event.notice = .whileConnected) :
    (only p (emit event)).wp (post (fun _ => Asking opened c device) fun _ _ => False) c' := by
  rw [wp_only, wp_emit]
  exact ⟨fun _ => h.push he, fun _ => h⟩

/-- What changes of the connection without a new alarm. -/
theorem setConns (h : Asking opened c device c') {f : Connection → Connection}
    (hdevice : ∀ conn, (f conn).device = conn.device)
    (hawaiting : ∀ conn, (f conn).awaitingConfig = conn.awaitingConfig) :
    Asking opened c device { c' with loop := { c'.loop with conn := c'.loop.conn.map f } } where
  sound := h.sound.of_same ⟨by simp [Function.comp_def, hawaiting], rfl, rfl, rfl, rfl, rfl⟩ rfl rfl
  conn := by simpa [Function.comp_def, hdevice] using h.conn
  target := h.target
  lastRestore := h.lastRestore
  world := h.world

/-- CONFIG_CHANGED ends the wait for it. -/
theorem settled (h : Asking opened c device c') : Asking opened c device { c' with loop := { c'.loop with
    conn := c'.loop.conn.map fun conn => { conn with awaitingConfig := false }, settle := none } } := by
  obtain ⟨conn, hconn, hdevice⟩ := Option.map_eq_some_iff.mp h.conn
  have hscan := h.sound.alarms.scan
  have hphase := h.sound.phase
  rw [hconn] at hscan hphase
  rw [hconn]
  exact ⟨⟨⟨hscan, rfl, fun hnone => by cases hnone⟩, hphase, h.sound.known, h.sound.opened⟩,
    congrArg some hdevice, h.target, h.lastRestore, h.world⟩

end Asking

/-! ### The pin configuration -/

variable [World ω]

/-- Writing the target back: the device may be lost at both accesses. -/
theorem ends_restoreTarget {target : PinConfig} (h : Sound opened c) (hconn : c.loop.conn = some conn)
    (htarget : c.loop.target = some target) :
    restoreTarget.wp (ends opened (restoreRejected target conn.device c.world)) c := by
  unfold restoreTarget
  rw [loop_bind, hconn, htarget]
  simp only [setLoop_bind, now_bind]
  have h1 : Sound opened { c with
      world := (timeNow c.world).2
      loop := { c.loop with restore := none, lastRestore := some (timeNow c.world).1 } } :=
    (h.setRestore fun _ => rfl).of_same ⟨rfl, rfl, rfl, rfl, rfl, rfl⟩ rfl rfl
  refine wp_ask hconn (fun report s hread => ?_) (fun e s hread => ?_) fun s hread =>
    ⟨h1.withDevice hconn s, .inl ⟨rfl, by simp [restoreRejected, hread]⟩⟩
  · have h2 := h1.withDevice hconn s
    refine setConfig_bind h2.known ?_
    have h3 := h2.setConfig report.config
    split
    · next hfound => exact ⟨by simp [restoreRejected, hread, hfound], h3⟩
    · next hfound =>
      have hrejected : restoreRejected target conn.device c.world = writeRejected target s := by
        simp [restoreRejected, hread, hfound]
      rw [hrejected]
      refine wp_ask (Eq.refl (some ({ conn with device := s.1 } : Connection))) (fun _ s' hwrite => ?_)
        (fun e s' hwrite => ?_) fun s' hwrite =>
          ⟨h3.withDevice rfl s', .inl ⟨rfl, writeRejected_error hwrite⟩⟩
      · have h4 := h3.withDevice rfl s'
        simp only [setLoop_bind, loop_bind, emit_bind]
        refine ends_of_sound (sound_wrote _ _ (Sound.push ?_ rfl rfl) rfl) (writeRejected_ok hwrite)
        exact h4.of_same ⟨rfl, rfl, rfl, rfl, rfl, rfl⟩ rfl rfl
      · have h4 := h3.withDevice rfl s'
        split
        · next heq => cases heq
        · next heq =>
          cases heq
          exact ⟨h4, .inr ⟨⟨_, rfl⟩, writeRejected_error hwrite, rfl⟩⟩
        · next heq =>
          cases heq
          exact ⟨writeRejected_error hwrite, h4.setRestore fun hnone => by cases hnone⟩
        · next hrej _ heq =>
          cases heq
          refine ends_of_sound (sound_lost _ h4) ((writeRejected_error hwrite).trans ?_)
          cases e <;> first | rfl | exact (hrej _ _ _ rfl).elim
  · exact ends_of_sound (sound_lost e (h1.withDevice hconn s)) (by simp [restoreRejected, hread])

theorem ends_configChanged (h : Sound opened c) (hconn : c.loop.conn = some conn) : configChanged.wp
    (ends opened (changeRejected c.loop.target c.loop.lastRestore conn.device c.world)) c := by
  unfold configChanged
  have hdevice := h.withDevice hconn
  refine wp_ask hconn (fun report s hread => ?_) (fun e s hread => ?_) fun s hread =>
    ⟨hdevice s, .inl ⟨rfl, by simp only [changeRejected, hread]⟩⟩
  · rw [loop_bind]
    refine setConfig_bind (hdevice s).known ?_
    have h1 := (hdevice s).setConfig report.config
    rw [loop_bind]
    split
    · next htarget =>
      have htarget : c.loop.target = none := htarget
      refine ends_of_sound ?_ (by simp [changeRejected, hread, htarget])
      rw [wp_only, wp_emit]
      exact ⟨fun _ => h1.push rfl rfl, fun _ => h1⟩
    · next target htarget =>
      have htarget : c.loop.target = some target := htarget
      split
      · next hfound => exact ⟨by simp [changeRejected, hread, htarget, hfound], h1⟩
      · next hfound =>
        rw [now_bind, loop_bind]
        dsimp only
        split
        · next hwait =>
          have hwait : 0 < restoreInterval - since (timeNow s.2).1 c.loop.lastRestore := hwait
          exact ⟨by simp only [changeRejected, hread, htarget, hwait]; simp,
            (h1.world _).setRestore fun hnone => by cases hnone⟩
        · next hwait =>
          have hwait : ¬ 0 < restoreInterval - since (timeNow s.2).1 c.loop.lastRestore := hwait
          have hrejected : changeRejected c.loop.target c.loop.lastRestore conn.device c.world =
              restoreRejected target s.1 (timeNow s.2).2 := by
            simp only [changeRejected, hread, htarget, hwait, Option.any_some]
            simp [hfound]
          rw [hrejected]
          have hrestore := ends_restoreTarget (h1.world (timeNow s.2).2) rfl htarget
          exact hrestore
  · exact ends_of_sound (sound_lost e (hdevice s)) (by simp only [changeRejected, hread])

/-! ### Receiving -/

/-- A status report is handled in a sound context up to the end, or until the device is lost or a write is
    rejected while a CONFIG_CHANGED is followed. -/
theorem ends_status (s : Status) (at' : Time) (missed : ℕ) (h : Sound opened c)
    (hconn : c.loop.conn = some conn) :
    (status s at' missed).wp (ends opened (contains s.reason Host.Reason.configChanged &&
      changeRejected c.loop.target c.loop.lastRestore conn.device c.world)) c := by
  unfold status
  rw [connection_bind hconn, setConn_bind]
  have h0 : Asking opened c conn.device { c with loop := { c.loop with
      conn := some { conn with clock := conn.clock.add at' s.timestampUs } } } := by
    refine ⟨h.of_same ⟨?_, rfl, rfl, rfl, rfl, rfl⟩ rfl rfl, rfl, rfl, rfl, rfl⟩
    rw [hconn]
    rfl
  refine onOff_bind mem_mask fun on => ?_
  rw [emit_bind]
  have h1 := h0.push (rfl : (Event.statusReceived s missed on).notice = .whileConnected)
  refine wp_then (h1.only rfl) fun _ c2 h2 => ?_
  refine wp_then (R := fun _ => Asking opened c conn.device) ?_ fun _ c3 h3 => ?_
  · rw [wp_only, wp_setLoop]
    exact ⟨fun _ => h2.setConns (fun _ => rfl) fun _ => rfl, fun _ => h2⟩
  refine wp_then (R := fun _ => Asking opened c conn.device) ?_ fun _ c4 h4 => ?_
  · rw [wp_only, wp_setLoop]
    exact ⟨fun _ => h3.settled, fun _ => h3⟩
  obtain ⟨conn4, hconn4, hdevice⟩ := Option.map_eq_some_iff.mp h4.conn
  refine wp_seq (R := ends opened (contains s.reason Host.Reason.configChanged &&
      changeRejected c.loop.target c.loop.lastRestore conn.device c.world)) ?_
    (fun _ c5 h5 => ?_) fun _ _ h5 => h5
  · have hchanged := ends_configChanged h4.sound hconn4
    rw [h4.target, h4.lastRestore, hdevice, h4.world] at hchanged
    rw [wp_only]
    refine ⟨fun hbit => ?_, fun hbit => ⟨?_, h4.sound⟩⟩
    · rw [hbit, Bool.true_and]
      exact hchanged
    · rw [Bool.not_eq_true _ |>.mp hbit, Bool.false_and]
  · rw [loop_bind]
    split
    · exact h5
    · next hconn5 =>
      split
      · exact h5
      · refine ends_of_sound (wp_mono (living_absorb s ⟨h5.2, by rw [hconn5]; rfl⟩) fun r _ hr => ?_) h5.1
        cases r with
        | ok _ => exact hr.1
        | error _ => exact hr

theorem kept_received (r : Except OsError (List U8)) (at' : Time) (h : Sound opened c)
    (hconn : c.loop.conn = some conn) : (received r at').wp (kept opened) c := by
  unfold received
  split
  · exact kept_of_sound (sound_lost _ h)
  · split
    · exact h
    split
    · exact h
    · rw [connection_bind hconn, setConn_bind]
      refine kept_of_ends (ends_status _ _ _ (h.of_same ⟨?_, rfl, rfl, rfl, rfl, rfl⟩ rfl rfl) rfl)
      rw [hconn]
      rfl

/-- The snapshot may lose the device, and it returns the rejection of a write that it led to. -/
theorem ends_snapshot (h : Sound opened c) (hconn : c.loop.conn = some conn) :
    snapshot.wp (ends opened (snapshotRejected c.loop c.world)) c := by
  unfold snapshot
  have hdevice := h.withDevice hconn
  refine wp_ask hconn (fun s t hread => ?_) (fun e t hread => ?_) fun t hread =>
    ⟨hdevice t, .inl ⟨rfl, by simp only [snapshotRejected, hconn, Option.any_some, hread]⟩⟩
  · refine (connection_bind rfl _).mpr ?_
    rw [setConn_bind, now_bind]
    have hrejected : snapshotRejected c.loop c.world = (contains s.reason Host.Reason.configChanged &&
        changeRejected c.loop.target c.loop.lastRestore t.1 (timeNow t.2).2) := by
      simp only [snapshotRejected, hconn, Option.any_some, hread]
    rw [hrejected]
    have hsound : Sound opened { c.withDevice conn t with
        world := (timeNow t.2).2
        loop := { (c.withDevice conn t).loop with conn := some { conn with
          device := t.1
          snapshotSeq := if s.seq ≠ 0 ∧ s.moreEvents = false then some s.seq else none } } } :=
      (hdevice t).of_same ⟨rfl, rfl, rfl, rfl, rfl, rfl⟩ rfl rfl
    have hstatus := ends_status s (timeNow t.2).1 0 hsound rfl
    exact hstatus
  · exact ends_of_sound (sound_lost e (hdevice t))
      (by simp only [snapshotRejected, hconn, Option.any_some, hread])

/-! ### Connecting -/

omit [World ω] in
theorem sound_idle (h : Sound opened c) (hconn : c.loop.conn = none) :
    Idle opened { c with loop := { c.loop with scan := none } } where
  conn := hconn
  scan := rfl
  restore := h.alarms.restore hconn
  settle := by
    have hsettle := h.alarms.settle
    rw [hconn] at hsettle
    exact Option.not_isSome_iff_eq_none.mp (by rw [hsettle]; decide)
  phase := by
    have hp := h.phase
    rw [hconn] at hp
    exact hp
  known := h.known
  opened := h.opened

omit [World ω] in
/-- The next attempt is made later. -/
theorem sound_scanLater (h : Idle opened c) : scanLater.wp (sound opened) c := by
  refine (wp_setLoop _ _).mpr ⟨⟨?_, ?_, fun _ => h.restore⟩, ?_, h.known, h.opened⟩
  · simp [h.conn]
  · simp [h.conn, h.settle]
  · simp [h.conn, h.phase]

omit [World ω] in
theorem idle_failed (err : Error) (h : Idle opened c) :
    (failed err).wp (post (fun _ => Idle opened) fun _ _ => False) c := by
  unfold failed
  refine wp_then (R := fun _ => Idle opened) ?_ fun _ c1 h1 => ?_
  · refine (wp_setLoop _ _).mpr (h.of_same ?_ rfl rfl)
    split <;> exact ⟨rfl, rfl, rfl, rfl, rfl, rfl⟩
  rw [setLoop_bind, loop_bind]
  have h2 : Idle opened { c1 with loop := { c1.loop with failures := c1.loop.failures + 1 } } :=
    h1.of_same ⟨rfl, rfl, rfl, rfl, rfl, rfl⟩ rfl rfl
  split
  · refine (wp_emit _ _).mpr ⟨h2.conn, h2.scan, h2.restore, h2.settle, ?_, h2.known, h2.opened⟩
    rw [Ctx.push, notices_concat, phase_concat, h2.phase]
    rfl
  · exact h2

omit [World ω] in
/-- A failed attempt is noted in any state. -/
theorem wp_failed (err : Error) : (failed err).wp
    (post (fun _ c' => c'.loop.conn = c.loop.conn ∧ c'.opened = c.opened) fun _ _ => False) c := by
  unfold failed
  refine wp_then (R := fun _ c1 => c1.loop.conn = c.loop.conn ∧ c1.opened = c.opened) ?_ fun _ c1 h1 => ?_
  · rw [wp_setLoop]
    refine ⟨?_, rfl⟩
    dsimp only
    split <;> rfl
  rw [setLoop_bind, loop_bind]
  split
  · rw [wp_emit]
    exact h1
  · exact h1

omit [World ω] in
theorem idle_useDevice (device : Device) (m : Device.Io ω α) (h : Idle opened c) : (useDevice device m).wp
    (post (fun _ => Idle opened) fun e c' => Idle opened c' ∧ (e = .hangs ∨ ∃ err, e = .error err)) c := by
  have hworld : ∀ w, Idle opened { c with world := w } :=
    fun w => h.of_same ⟨rfl, rfl, rfl, rfl, rfl, rfl⟩ rfl rfl
  unfold wp
  simp only [Prog.exec, useDevice, ExceptT.run, StateT.run]
  split
  · exact hworld _
  · next e _ _ _ =>
    refine ⟨hworld _, ?_⟩
    cases e with
    | error err => exact .inr ⟨err, rfl⟩
    | hangs => exact .inl rfl

/-- No new connection led to a rejected write when it was asked for its state. -/
def Clean (opened : List (WatchLoop × ω)) : Prop := ∀ x ∈ opened, snapshotRejected x.1 x.2 = false

theorem Clean.concat (h : Clean opened) {x : WatchLoop × ω} (hx : snapshotRejected x.1 x.2 = false) :
    Clean (opened ++ [x]) := by
  intro y hy
  rcases List.mem_append.mp hy with hy | hy
  · exact h y hy
  · rwa [List.mem_singleton.mp hy]

theorem not_clean_concat {x : WatchLoop × ω} (hx : snapshotRejected x.1 x.2 = true) :
    ¬ Clean (opened ++ [x]) := by
  intro hclean
  rw [hclean x (List.mem_append_right _ List.mem_cons_self)] at hx
  cases hx

/-- How an attempt to connect ends: with a sound context, with the device connected after a rejected write,
    with nothing connected, or for good. -/
inductive Attempted : Except Halt Unit → Ctx ω → Prop where
  | connected {c : Ctx ω} (hclean : Clean c.opened) (h : Sound c.opened c) : Attempted (.ok ()) c
  | rejected {c : Ctx ω} {err : Error} (hdirty : ¬ Clean c.opened) (hconn : c.loop.conn.isSome = true) :
      Attempted (.error (.error err)) c
  | failed {c : Ctx ω} {err : Error} (hclean : Clean c.opened) (h : Idle c.opened c) :
      Attempted (.error (.error err)) c
  | ended {c : Ctx ω} {e : Halt} (hclean : Clean c.opened) (h : Accepted c) (he : e.toError = none)
      (hpanic : e ≠ .panicked) : Attempted (.error e) c

theorem attempted_of_idle {e : Halt} (hclean : Clean opened) (h : Idle opened c)
    (he : e = .hangs ∨ ∃ err, e = .error err) : Attempted (.error e) c := by
  have hopened := h.opened
  subst hopened
  rcases he with rfl | ⟨err, rfl⟩
  · exact .ended hclean h.accepted rfl (by simp)
  · exact .failed hclean h

/-- A new connection is announced and then either awaits CONFIG_CHANGED or is asked for its state. -/
theorem attempted_connected (entry : DeviceEntry) (info : DeviceInfo) (device : Device) (found : PinConfig)
    (driven : List Gpio) (awaitingConfig : Bool) (hclean : Clean opened) (h : Idle opened c) :
    (connected entry info device found driven awaitingConfig).wp Attempted c := by
  unfold connected
  rw [setConn_bind, setLoop_bind, loop_bind, setLoop_bind]
  generalize hloop : ({ c.loop.resetFailures with
    conn := some ⟨device, .zero, none, none, awaitingConfig⟩, everConnected := true } : WatchLoop) = l
  have hknown : KnownInRange l := by
    rw [← hloop]
    exact h.known
  have hannounced : Announced opened awaitingConfig (({ c with loop := l.setConfig found } : Ctx ω).push
      (.connected entry.serial entry.path info found c.loop.everConnected)) := by
    refine ⟨by rw [← hloop]; rfl, ?_, ?_, ?_, hknown.setConfig found, h.opened⟩
    · rw [← hloop]; exact h.scan
    · rw [← hloop]; exact h.settle
    · rw [Ctx.push, notices_concat, phase_concat, h.phase, ← hloop]
      simp [Event.notice, Phase.next, WatchLoop.setConfig, WatchLoop.retain]
  subst hloop
  refine setConfig_bind hknown ?_
  rw [emit_bind]
  refine wp_then (R := fun _ => Announced opened awaitingConfig) ?_ fun _ c1 h1 => ?_
  · split
    · exact (wp_emit _ _).mpr (hannounced.push rfl)
    · exact (wp_only _ _).mpr ⟨fun _ => (wp_emit _ _).mpr (hannounced.push rfl), fun _ => hannounced⟩
  obtain ⟨conn, hconn⟩ := Option.isSome_iff_exists.mp h1.isSome
  have hopened := h1.opened
  subst hopened
  split
  · next hawaiting =>
    exact (wp_setLoop _ _).mpr (.connected hclean (h1.sound hawaiting.symm))
  · next hawaiting =>
    have hsettle : c1.loop.settle.isSome = awaitingConfig := by
      rw [h1.settle, Bool.not_eq_true _ |>.mp hawaiting]
      rfl
    rw [update_bind]
    have h2 := (h1.sound hsettle).ask (c1.loop, c1.world)
    refine wp_mono (ends_snapshot h2 hconn) fun r c2 h3 => ?_
    rcases r with e | _
    · have hopened := h3.1.opened
      rcases h3.2 with ⟨rfl, hrejected⟩ | ⟨⟨err, rfl⟩, hrejected, hsome⟩
      · exact .ended (hopened ▸ hclean.concat hrejected) h3.1.accepted rfl (by simp)
      · exact .rejected (hopened ▸ not_clean_concat hrejected) hsome
    · have hopened := h3.2.opened
      exact .connected (hopened ▸ hclean.concat h3.1) (hopened ▸ h3.2)

theorem attempted_connect (entry : DeviceEntry) (draws : List (Fin 255)) (hclean : Clean opened)
    (h : Idle opened c) : (connect entry draws).wp Attempted c := by
  have hsame : ∀ {c1 : Ctx ω} (w : ω) (info : Option DeviceInfo), Idle opened c1 →
      Idle opened { c1 with world := w, loop := { c1.loop with info } } := fun w info h1 =>
    h1.of_same ⟨rfl, rfl, rfl, rfl, rfl, rfl⟩ rfl rfl
  unfold connect
  rw [wp_bind, wp_call, post_ok]
  have hopen := hsame (World.openDevice entry c.world).2 c.loop.info h
  split
  · exact .failed (h.opened ▸ hclean) (h.opened ▸ hopen)
  refine wp_seq (idle_useDevice _ _ hopen) ?_ fun e c2 h2 => attempted_of_idle hclean h2.1 h2.2
  rintro ⟨info, device⟩ c2 h2
  rw [setLoop_bind]
  refine wp_seq (idle_useDevice _ _ (hsame c2.world (some info) h2)) ?_
    fun e c3 h3 => attempted_of_idle hclean h3.1 h3.2
  rintro ⟨report, device⟩ c3 h3
  rw [loop_bind]
  split
  · exact attempted_connected _ _ _ _ _ _ hclean h3
  split
  · exact attempted_connected _ _ _ _ _ _ hclean h3
  · next target _ _ =>
    rw [wp_bind, result, wp_catching]
    refine wp_mono (idle_useDevice device (Device.setPinConfig target) h3) fun r c4 h4 => ?_
    rcases r with e | ⟨_, device⟩
    · rcases h4.2 with rfl | ⟨err, rfl⟩
      · exact attempted_of_idle hclean h4.1 (.inl rfl)
      · dsimp only [caught, Halt.toError, post_ok]
        split
        · next heq => exact .ended (h4.1.opened ▸ hclean) h4.1.accepted rfl (by simp)
        · exact attempted_of_idle hclean h4.1 (.inr ⟨_, rfl⟩)
        · next heq => cases heq
    · exact attempted_connected _ _ _ _ _ _ hclean h4

/-- How a turn of the loop ends: with a sound context, with the device connected and looked for after a
    rejected write, or for good. -/
inductive Turned (a : α) : Except Halt α → Ctx ω → Prop where
  | sound {c : Ctx ω} (hclean : Clean c.opened) (h : Sound c.opened c) : Turned a (.ok a) c
  | broken {c : Ctx ω} (hdirty : ¬ Clean c.opened) (hconn : c.loop.conn.isSome = true)
      (hscan : c.loop.scan.isSome = true) : Turned a (.ok a) c
  | ended {c : Ctx ω} {e : Halt} (hclean : Clean c.opened) (h : Accepted c) (hpanic : e ≠ .panicked) :
      Turned a (.error e) c

theorem turned_of_sound {m : Watch ω Unit} (hclean : Clean opened) (h : m.wp (sound opened) c) :
    m.wp (Turned ()) c :=
  wp_mono h fun r _ h1 => by
    cases r with
    | ok _ => exact .sound (h1.opened ▸ hclean) (h1.opened ▸ h1)
    | error _ => exact h1.elim

/-- The loop goes on after a turn. -/
theorem turned_on {m : Watch ω Unit} (h : m.wp (Turned ()) c) :
    (m >>= fun _ => (pure true : Watch ω Bool)).wp (Turned true) c :=
  wp_seq h (fun _ _ h1 => by
    cases h1 with
    | sound hclean h => exact .sound hclean h
    | broken hdirty hconn hscan => exact .broken hdirty hconn hscan)
    fun _ _ h1 => by
      cases h1 with
      | ended hclean h hpanic => exact .ended hclean h hpanic

theorem turned_tryConnect (draws : List (Fin 255)) (hclean : Clean opened) (h : Idle opened c) :
    (tryConnect draws).wp (Turned ()) c := by
  have hfailed : ∀ (err : Error) {c1 : Ctx ω}, Clean c1.opened → Idle c1.opened c1 →
      (failed err >>= fun _ => scanLater).wp (Turned ()) c1 := fun err c1 hc h1 =>
    turned_of_sound hc (wp_then (idle_failed err h1) fun _ c2 h2 => sound_scanLater h2)
  have hopened := h.opened
  subst hopened
  have h1 : Idle c.opened { c with world := (World.devices c.world).2 } :=
    h.of_same ⟨rfl, rfl, rfl, rfl, rfl, rfl⟩ rfl rfl
  unfold tryConnect
  rw [wp_bind, wp_call, post_ok]
  dsimp only
  split
  · exact .ended hclean h1.accepted (by simp)
  · exact hfailed _ hclean h1
  · rw [loop_bind]
    split
    · rw [setLoop_bind]
      exact turned_of_sound hclean (sound_scanLater (h1.of_same ⟨rfl, rfl, rfl, rfl, rfl, rfl⟩ rfl rfl))
    · split
      · exact .ended hclean h1.accepted (by simp)
      rw [setLoop_bind, wp_bind, result, wp_catching]
      refine wp_mono (attempted_connect _ draws hclean (h1.of_same ⟨rfl, rfl, rfl, rfl, rfl, rfl⟩ rfl rfl))
        fun r c2 h2 => ?_
      cases h2 with
      | connected hclean h2 => exact .sound hclean h2
      | failed hclean h2 => exact hfailed _ hclean h2
      | rejected hdirty hconn =>
        refine wp_then (wp_failed _) fun _ c3 h3 => (wp_setLoop _ _).mpr (.broken (h3.2 ▸ hdirty) ?_ rfl)
        rw [show c3.loop.conn = _ from h3.1]
        exact hconn
      | ended hclean h2 he hpanic =>
        rw [caught, he]
        exact .ended hclean h2 hpanic

/-! ### The loop -/

theorem kept_restoreTarget (h : Sound opened c) : restoreTarget.wp (kept opened) c := by
  rcases hconn : c.loop.conn with _ | conn
  · unfold restoreTarget
    rw [loop_bind, hconn]
    exact h
  rcases htarget : c.loop.target with _ | target
  · unfold restoreTarget
    rw [loop_bind, hconn, htarget]
    exact h
  · exact kept_of_ends (ends_restoreTarget h hconn htarget)

omit [World ω] in
theorem kept_onDevice (m : Device.Io ω α) (h : Sound opened c) (hconn : c.loop.conn = some conn) :
    (onDevice m).wp (post (fun _ c' => Sound opened c' ∧ c'.loop.conn.isSome = true)
      fun e c' => Sound opened c' ∧ (e = .hangs ∨ ∃ err, e = .error err)) c := by
  rw [wp_onDevice hconn]
  refine wp_mono (Q := fun _ _ => True) trivial fun r s _ => ?_
  rcases r with (e | _) | _
  · exact ⟨h.withDevice hconn s, .inr ⟨e, rfl⟩⟩
  · exact ⟨h.withDevice hconn s, .inl rfl⟩
  · exact ⟨h.withDevice hconn s, rfl⟩

/-- The application gets the errors of `setTarget`; the context is sound whatever they are. -/
theorem kept_setTarget (config : PinConfig) (h : Sound opened c) :
    (setTarget config).wp (kept opened) c := by
  unfold setTarget
  refine wp_seq (R := kept opened) ?_ (fun _ c1 h1 => ?_) fun _ _ h1 => h1
  · unfold checkTarget
    rw [loop_bind]
    split
    · exact h
    · next info _ =>
      generalize validatePinConfig config info.available = r
      dsimp only
      split
      · exact (wp_throw _ _).mpr ⟨h, .inr ⟨_, rfl⟩⟩
      · exact h
  have h1 : Sound opened c1 := h1
  rw [loop_bind, setLoop_bind, loop_bind]
  have h2 : Sound opened { c1 with loop := { c1.loop with target := some config } } :=
    h1.of_same ⟨rfl, rfl, rfl, rfl, rfl, rfl⟩ rfl rfl
  split
  · exact h2
  next conn hconn =>
  rw [setLoop_bind]
  refine wp_seq (kept_onDevice Device.getPinConfig (h2.setRestore fun _ => rfl) hconn) ?_ fun _ _ h3 => h3
  rintro report c3 ⟨h3, hconn3⟩
  obtain ⟨conn3, hconn3⟩ := Option.isSome_iff_exists.mp hconn3
  refine setConfig_bind h3.known ?_
  have h4 := h3.setConfig report.config
  split
  · exact h4
  refine wp_ask (show _ = some conn3 from hconn3) (fun _ s' _ => ?_) (fun e s' _ => ?_)
    fun s' _ => ⟨h4.withDevice hconn3 s', .inl rfl⟩
  · exact kept_of_sound (sound_wrote _ _ (h4.withDevice hconn3 s') rfl)
  · have h5 := h4.withDevice hconn3 s'
    split
    · next heq => cases heq
    · rw [setLoop_bind]
      exact ⟨h5.of_same ⟨rfl, rfl, rfl, rfl, rfl, rfl⟩ rfl rfl, .inr ⟨_, rfl⟩⟩
    · rw [setLoop_bind]
      exact ⟨h5.setRestore (fun hnone => by cases hnone), .inr ⟨_, rfl⟩⟩
    · exact ⟨h5, .inr ⟨_, rfl⟩⟩

theorem kept_serve (request : Request) (h : Sound opened c) : (serve request).wp (kept opened) c := by
  have hreply : ∀ {m : Watch ω Unit}, m.wp (kept opened) c →
      (result m >>= fun reply => update fun c => { c with replies := c.replies ++ [(request, reply)] }).wp
        (kept opened) c := fun hm => by
    rw [wp_bind, result, wp_catching]
    refine wp_mono hm fun r c' hr => ?_
    rcases r with e | _
    · rcases hr.2 with rfl | ⟨err, rfl⟩
      · exact ⟨hr.1, .inl rfl⟩
      · exact hr.1.of_same ⟨rfl, rfl, rfl, rfl, rfl, rfl⟩ rfl rfl
    · exact Sound.of_same hr ⟨rfl, rfl, rfl, rfl, rfl, rfl⟩ rfl rfl
  refine hreply ?_
  cases request with
  | setTargetPins config => exact kept_setTarget config h
  | setOutputs levels =>
    dsimp only
    rw [loop_bind]
    split
    · exact ⟨h, .inr ⟨_, rfl⟩⟩
    · next conn hconn =>
      refine wp_mono (kept_onDevice (setOutputs levels) h hconn) fun r c' hr => ?_
      cases r with
      | ok _ => exact hr.1
      | error _ => exact hr

theorem turned_of_kept {m : Watch ω Unit} (hclean : Clean opened) (h : m.wp (kept opened) c) :
    m.wp (Turned ()) c :=
  wp_mono h fun r _ h1 => by
    cases r with
    | ok _ => exact .sound (h1.opened ▸ hclean) (h1.opened ▸ h1)
    | error e =>
      refine .ended (h1.1.opened ▸ hclean) h1.1.accepted ?_
      rintro rfl
      rcases h1.2 with hhangs | ⟨_, herror⟩
      · cases hhangs
      · cases herror

/-- A turn of the loop with an act that `select` can choose. -/
theorem turned_turn {act : Act} (henabled : c.loop.enabled act = true) (hact : act ≠ .done)
    (hclean : Clean opened) (h : Sound opened c) : (turn act).wp (Turned true) c := by
  cases act with
  | done => exact absurd rfl hact
  | take =>
    have h1 : Sound opened { c with loop := { c.loop with pending := c.loop.pending.tail } } :=
      h.of_same ⟨rfl, rfl, rfl, rfl, rfl, rfl⟩ rfl rfl
    rw [turn]
    exact turned_on (turned_of_sound hclean ((wp_setLoop _ _).mpr h1))
  | request request =>
    rw [turn]
    exact turned_on (turned_of_kept hclean (kept_serve request h))
  | report r at' =>
    obtain ⟨conn, hconn⟩ := Option.isSome_iff_exists.mp (Bool.and_eq_true _ _ |>.mp henabled).2
    rw [turn]
    exact turned_on (turned_of_kept hclean (kept_received r at' h hconn))
  | scan draws =>
    have hconn := h.alarms.scan
    rw [show c.loop.scan.isSome = true from henabled] at hconn
    rw [turn, setLoop_bind]
    exact turned_on (turned_tryConnect draws hclean (sound_idle h (by simpa using hconn)))
  | restore =>
    rw [turn, setLoop_bind]
    exact turned_on (turned_of_kept hclean (kept_restoreTarget (h.setRestore fun _ => rfl)))
  | settle =>
    have hawaiting := h.alarms.settle
    rw [show c.loop.settle.isSome = true from henabled] at hawaiting
    obtain ⟨conn, hconn, -⟩ := (Option.any_eq_true _ _).mp hawaiting.symm
    have hscan := h.alarms.scan
    have hphase := h.phase
    rw [hconn] at hscan hphase
    have h1 : Sound opened { c with
        loop := { c.loop with settle := none, conn := some { conn with awaitingConfig := false } } } :=
      ⟨⟨hscan, rfl, fun hnone => by cases hnone⟩, hphase, h.known, h.opened⟩
    rw [turn, setLoop_bind, loop_bind, show c.loop.conn = some conn from hconn]
    exact turned_on (turned_of_kept hclean (kept_of_ends (ends_snapshot h1 rfl)))

end Watch

namespace Watcher
variable [World ω]

/-- The life cycle of a watcher: its notifications come in a possible order, and while the loop runs the
    alarms fit the connection and no act that `select` can choose panics. -/
def InOrder (w : Watcher ω) : Prop :=
  (phase (notices w.ctx.emitted)).isSome = true ∧
  (w.alive = true → Alarms w.ctx.loop ∧
    phase (notices w.ctx.emitted) = some ⟨w.ctx.loop.conn.isSome, w.ctx.loop.everConnected⟩ ∧
    ∀ act, w.ctx.loop.enabled act = true → ((Watch.turn act).exec w.ctx).1 ≠ .error .panicked)

/-- What a step of a watcher keeps, unless a new connection leads to a rejected write. -/
structure Lives (w : Watcher ω) : Prop where
  accepted : Accepted w.ctx
  clean : Watch.Clean w.ctx.opened
  sound : w.alive = true → Sound w.ctx.opened w.ctx

theorem Lives.inOrder {w : Watcher ω} (h : Lives w) : w.InOrder := by
  refine ⟨h.accepted, fun halive => ⟨(h.sound halive).alarms, (h.sound halive).phase,
    fun act henabled hpanic => ?_⟩⟩
  by_cases hact : act = .done
  · rw [hact] at hpanic
    cases hpanic
  · have hturned := Watch.turned_turn henabled hact h.clean (h.sound halive)
    rw [Prog.wp_of_exec (Prod.ext hpanic rfl)] at hturned
    cases hturned with
    | ended _ _ hne => exact hne rfl

theorem lives_stopped {c : Ctx ω} (hclean : Watch.Clean c.opened) (h : Accepted c) (err : Option Error) :
    Lives (stopped c err) := ⟨h, hclean, nofun⟩

/-- A step ends the life cycle exactly when a write is rejected that a new connection led to. -/
theorem lives_step {w : Watcher ω} (h : Lives w) (act : Act) :
    Lives (w.step act) ∨ ¬ Watch.Clean (w.step act).ctx.opened ∧ ¬ (w.step act).InOrder := by
  unfold step
  split
  · next hon =>
    obtain ⟨halive, henabled⟩ := Bool.and_eq_true _ _ |>.mp hon
    by_cases hact : act = .done
    · subst hact
      exact .inl (lives_stopped h.clean h.accepted none)
    have hturned := Watch.turned_turn henabled hact h.clean (h.sound halive)
    rcases hexec : (Watch.turn act).exec w.ctx with ⟨r, c⟩
    rw [Prog.wp_of_exec hexec] at hturned
    cases hturned with
    | sound hclean hsound => exact .inl ⟨hsound.accepted, hclean, fun _ => hsound⟩
    | broken hdirty hconn hscan =>
      refine .inr ⟨hdirty, fun horder => ?_⟩
      have halarm := (horder.2 halive).1.scan
      rw [hconn, hscan] at halarm
      cases halarm
    | @ended _ e hclean haccepted _ =>
      cases e with
      | error err => exact .inl (lives_stopped hclean haccepted _)
      | fatal err => exact .inl (lives_stopped hclean haccepted _)
      | panicked => exact .inl ⟨haccepted, hclean, nofun⟩
      | hangs => exact .inl ⟨haccepted, hclean, nofun⟩
  · exact .inl h

theorem lives_start (o : WatchOptions) (w : ω) : Lives (start o w) where
  accepted := rfl
  clean := by
    intro x hx
    cases hx
  sound _ := by
    refine ⟨⟨rfl, rfl, fun _ => rfl⟩, rfl, ?_, rfl⟩
    intro gpio hgpio
    cases hgpio

/-- A run whose states so far are each in order or without a rejection. -/
theorem lives_run (o : WatchOptions) (w : ω) (acts : List Act)
    (h : ∀ past, past <+: acts → (Lib.run step (start o w) past).InOrder ∨
      Watch.Clean (Lib.run step (start o w) past).ctx.opened) : Lives (Lib.run step (start o w) acts) := by
  induction acts using List.reverseRecOn with
  | nil => exact lives_start o w
  | append_singleton acts act ih =>
    have hlives := ih fun past hpast => h past (hpast.trans (List.prefix_append _ _))
    have hlast := h _ (List.prefix_refl _)
    rw [Lib.run_append, Lib.run_cons, Lib.run_nil] at hlast ⊢
    rcases lives_step hlives act with hnext | ⟨hdirty, hdisorder⟩
    · exact hnext
    · exact absurd hlast (not_or.mpr ⟨hdisorder, hdirty⟩)

/-- The life cycle of the watch loops: the one of the Rust library keeps it in every run, and the one of the
    Go library keeps it in a run exactly as long as no new connection leads to a rejected write. -/
theorem life_cycles :
    (∀ (o : Host.WatchOptions) (w : ω) (inputs : List Host.Input),
      (Lib.run Host.Watcher.step (Host.Watcher.start o w) inputs).InOrder) ∧
    ∀ (o : WatchOptions) (w : ω) (acts : List Act),
      (∀ past, past <+: acts → (Lib.run step (start o w) past).InOrder) ↔
      ∀ past, past <+: acts → ∀ x ∈ (Lib.run step (start o w) past).ctx.opened,
        snapshotRejected x.1 x.2 = false := by
  refine ⟨Host.Watcher.life_cycle, fun o w acts => ⟨fun h past hpast => ?_, fun h past hpast => ?_⟩⟩
  · exact (lives_run o w past fun past' hpast' => .inl (h past' (hpast'.trans hpast))).clean
  · exact (lives_run o w past fun past' hpast' => .inr (h past' (hpast'.trans hpast))).inOrder

/-- A target with one input, and a device that has it until another program frees the pin: the snapshot tells
    of that, and the device rejects the target. The second attempt to connect finds the target again. -/
def contested : Script :=
  let target : PinConfig := fun n => if n.val = 3 then .monitorPullUp 20 else .unused
  let report (result requestId : U8) (config : PinConfig) : List U8 :=
    Host.reportIdPinConfig :: PinConfigReport.encode ⟨result, Host.resultGpioNone, requestId, config⟩
  { features := [.ok Script.deviceInfo, .ok (report resultOk 0 target),
      .ok (report resultOk 9 fun _ => .unused), .ok (report resultOk 9 fun _ => .unused),
      .ok (report resultUnavailableGpio 8 fun _ => .unused),
      .ok Script.deviceInfo, .ok (report resultOk 0 target)]
    sends := []
    inputs := [.ok ([1, 0, 0, 0x84] ++ List.replicate 60 0), .ok Script.status]
    reads := [] }

/-- The loop connects twice without losing the device in between. -/
theorem connects_twice : ¬ ∀ (o : WatchOptions) (w : Script) (acts : List Act),
    (Lib.run step (start o w) acts).InOrder := by
  intro h
  have hrun :=
    (h ⟨"", some fun n => if n.val = 3 then .monitorPullUp 20 else .unused, fun _ => none, 0⟩ contested
      [.scan [7], .scan []]).1
  revert hrun
  decide +kernel

end Watcher

end Hidpin.Go
