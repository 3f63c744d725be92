import Hidpin.Host.Watcher

/-! What the methods of the watch loop do to its view of the pins: they emit notifications, take over a
    pin configuration and absorb status reports. Everything else they do leaves the view alone, so a
    property that survives these three survives every method. -/

namespace Hidpin.Host
open Lib

/-- What the loop knows and told about the pins. -/
structure View (ω : Type) where
  known : U8 → Option Bool
  config : PinConfig
  activeLow : U8 → Option Bool
  emitted : List Emitted
  absorbed : List (Absorbed ω)

/-- The view of a context. -/
def Ctx.view {ω : Type} (c : Ctx ω) : View ω where
  known := c.loop.known
  config := c.loop.config
  activeLow := c.loop.activeLow
  emitted := c.emitted
  absorbed := c.absorbed

/-- The ON/OFF a notification gives to pins. -/
def Event.onOff : Event → List (U8 × Bool)
  | .initialOnOff on => on
  | .onOffChange change => [(change.gpio, change.on)]
  | _ => []

/-- Whether a notification is one of those that `absorb` emits. -/
def Event.isOnOff : Event → Bool
  | .initialOnOff _ | .onOffChange _ => true
  | _ => false

/-- The context after a notification. -/
def Ctx.push {ω : Type} (c : Ctx ω) (event : Event) : Ctx ω :=
  { c with
    loop := { c.loop with pending := c.loop.pending ++ [event] }
    emitted := c.emitted ++ [⟨event, c.loop.config⟩] }

/-- The context after a program on the device of the connection. -/
def Ctx.withDevice {ω : Type} (c : Ctx ω) (conn : Connection) (s : Device × ω) : Ctx ω :=
  { c with world := s.2, loop := { c.loop with conn := some { conn with device := s.1 } } }

namespace Watch
variable {ω α : Type} {I : Ctx ω → Prop}

section Access
variable {c : Ctx ω}
open Prog

@[simp] theorem wp_loop (Q : Except Stop WatchLoop → Ctx ω → Prop) : loop.wp Q c ↔ Q (.ok c.loop) c :=
  Iff.rfl

@[simp] theorem wp_setLoop (f : WatchLoop → WatchLoop) (Q : Except Stop Unit → Ctx ω → Prop) :
    (setLoop f).wp Q c ↔ Q (.ok ()) { c with loop := f c.loop } := Iff.rfl

@[simp] theorem wp_emit (event : Event) (Q : Except Stop Unit → Ctx ω → Prop) :
    (emit event).wp Q c ↔ Q (.ok ()) (c.push event) := Iff.rfl

@[simp] theorem wp_instant [World ω] (Q : Except Stop Instant → Ctx ω → Prop) :
    instant.wp Q c ↔
      Q (.ok (World.instant c.world).1) { c with world := (World.instant c.world).2 } := Iff.rfl

@[simp] theorem wp_result (m : Watch ω α) (Q : Except Stop (Except Error α) → Ctx ω → Prop) :
    (result m).wp Q c ↔ m.wp (fun r => Q (caught Stop.toError r)) c := Iff.rfl

/-! The first statement of a method when it cannot fail: the rest runs in the next context. -/

variable {β : Type} {Q : Except Stop β → Ctx ω → Prop}

theorem loop_bind (f : WatchLoop → Watch ω β) : (loop >>= f).wp Q c ↔ (f c.loop).wp Q c := Iff.rfl

theorem setLoop_bind (g : WatchLoop → WatchLoop) (f : Unit → Watch ω β) :
    (setLoop g >>= f).wp Q c ↔ (f ()).wp Q { c with loop := g c.loop } := Iff.rfl

theorem setConn_bind (conn : Connection) (f : Unit → Watch ω β) :
    (setConn conn >>= f).wp Q c ↔ (f ()).wp Q { c with loop := { c.loop with conn := some conn } } :=
  Iff.rfl

theorem emit_bind (event : Event) (f : Unit → Watch ω β) :
    (emit event >>= f).wp Q c ↔ (f ()).wp Q (c.push event) := Iff.rfl

theorem instant_bind [World ω] (f : Instant → Watch ω β) : (instant >>= f).wp Q c ↔
    (f (World.instant c.world).1).wp Q { c with world := (World.instant c.world).2 } := Iff.rfl

theorem update_bind (g : Ctx ω → Ctx ω) (f : Unit → Watch ω β) :
    (Prog.update g >>= f).wp Q c ↔ (f ()).wp Q (g c) := Iff.rfl

theorem gets_bind (g : Ctx ω → α) (f : α → Watch ω β) :
    (Prog.gets g >>= f).wp Q c ↔ (f (g c)).wp Q c := Iff.rfl

theorem indexed_bind {inRange : Bool} (h : inRange = true) (f : Unit → Watch ω β) :
    (indexed inRange >>= f).wp Q c ↔ (f ()).wp Q c := by
  rw [h]
  rfl

/-- Taking over a pin configuration may only stop on a GPIO number out of range. -/
theorem wp_setConfig {config : PinConfig} {Q : Except Stop Unit → Ctx ω → Prop}
    (hok : Q (.ok ()) { c with loop := c.loop.setConfig config }) (hpanic : Q (.error .panicked) c) :
    (setConfig config).wp Q c := by
  rw [setConfig, loop_bind]
  cases h : c.loop.knownInRange
  · exact hpanic
  · exact hok

theorem setConfig_bind {config : PinConfig} {f : Unit → Watch ω β}
    (hok : (f ()).wp Q { c with loop := c.loop.setConfig config }) (hpanic : Q (.error .panicked) c) :
    (setConfig config >>= f).wp Q c := by
  rw [wp_bind]
  exact wp_setConfig hok hpanic

theorem connection_bind {conn : Connection} (h : c.loop.conn = some conn) (f : Connection → Watch ω β) :
    (connection >>= f).wp Q c ↔ (f conn).wp Q c := by
  rw [wp_bind, connection, loop_bind, h]
  rfl

theorem wp_connection {conn : Connection} (h : c.loop.conn = some conn)
    (Q : Except Stop Connection → Ctx ω → Prop) : connection.wp Q c ↔ Q (.ok conn) c := by
  rw [connection, wp_bind, wp_loop, post_ok, h]
  rfl

theorem wp_onDevice (conn : Connection) (h : c.loop.conn = some conn) (m : Device.Io ω α)
    (Q : Except Stop α → Ctx ω → Prop) :
    (onDevice m).wp Q c ↔ m.wp (fun r s => Q r (c.withDevice conn s)) (conn.device, c.world) := by
  rw [onDevice, wp_bind, wp_connection h]
  rfl

/-- What a program does with the device that is being opened. -/
theorem wp_useDevice {device : Device} {m : Device.Io ω α} {Q : Except Stop α → Device × ω → Prop}
    {Q' : Except Stop (α × Device) → Ctx ω → Prop} (hm : m.wp Q (device, c.world))
    (hok : ∀ a d w, Q (.ok a) (d, w) → Q' (.ok (a, d)) { c with world := w })
    (herror : ∀ e d w, Q (.error e) (d, w) → Q' (.error e) { c with world := w }) :
      (useDevice device m).wp Q' c := by
  unfold wp at hm ⊢
  simp only [exec, useDevice, ExceptT.run, StateT.run] at hm ⊢
  split
  · next heq => rw [heq] at hm; exact hok _ _ _ hm
  · next heq => rw [heq] at hm; exact herror _ _ _ hm

/-- The call of a device program by a method: its value, an error of the library, or the end of the
    thread. -/
theorem wp_ask [World ω] {β : Type} {m : Device.Io ω α} {f : Except Error α → Watch ω β}
    {Q : Except Stop β → Ctx ω → Prop} (conn : Connection) (hconn : c.loop.conn = some conn)
    (hm : Device.Tame m)
    (hok : ∀ a s, m.exec (conn.device, c.world) = (.ok a, s) → (f (.ok a)).wp Q (c.withDevice conn s))
    (herror : ∀ e s, m.exec (conn.device, c.world) = (.error (.error e), s) →
      (f (.error e)).wp Q (c.withDevice conn s))
    (hhang : ∀ s, Q (.error .hangs) (c.withDevice conn s)) :
    (result (onDevice m) >>= f).wp Q c := by
  have hm := hm (conn.device, c.world)
  rw [wp_bind, wp_result, wp_onDevice conn hconn]
  rcases hexec : m.exec (conn.device, c.world) with ⟨(e | e | _ | _) | a, s⟩ <;>
    rw [wp_of_exec hexec] at hm <;> refine (wp_of_exec hexec _).mpr ?_
  · exact herror e s hexec
  · simp [Stop.toError] at hm
  · simp [Stop.toError] at hm
  · exact hhang s
  · exact hok a s hexec

end Access

/-- The clock of the connection is the same, or the connection is gone. -/
def SameClock (l l' : WatchLoop) : Prop :=
  l'.conn = none ∨ l'.conn.map Connection.clock = l.conn.map Connection.clock

/-- The connection, if there is one, has a clock sample. -/
def Clocked (c : Ctx ω) : Prop := ∀ conn, c.loop.conn = some conn → conn.clock.cur.isSome = true

/-- A property of the view and the clock that notifications and pin configurations keep. -/
structure Calm (I : Ctx ω → Prop) : Prop where
  view : ∀ (c : Ctx ω) {c' : Ctx ω}, c'.view = c.view → SameClock c.loop c'.loop → I c → I c'
  push : ∀ {c : Ctx ω} {event : Event}, event.onOff = [] → I c → I (c.push event)
  setConfig : ∀ {c : Ctx ω} (config : PinConfig), I c → I { c with loop := c.loop.setConfig config }

open Prog (Keeps)

theorem calm_clocked : Calm (Clocked (ω := ω)) where
  view c c' _ hclock hc conn hconn := by
    rcases hclock with h | h
    · rw [h] at hconn; exact absurd hconn (by simp)
    · rw [hconn] at h
      obtain ⟨old, hold, heq⟩ := Option.map_eq_some_iff.mp h.symm
      rw [← heq]
      exact hc old hold
  push _ hc := hc
  setConfig _ hc := hc

theorem Calm.and {J : Ctx ω → Prop} (hI : Calm I) (hJ : Calm J) : Calm fun c => I c ∧ J c where
  view c _ hview hclock hc := ⟨hI.view c hview hclock hc.1, hJ.view c hview hclock hc.2⟩
  push he hc := ⟨hI.push he hc.1, hJ.push he hc.2⟩
  setConfig config hc := ⟨hI.setConfig config hc.1, hJ.setConfig config hc.2⟩

namespace Calm

theorem loop : Keeps I (loop : Watch ω WatchLoop) := Keeps.gets _

theorem connection : Keeps I (connection : Watch ω Connection) := by
  refine Keeps.bind loop fun l => ?_
  split
  · exact Keeps.pure _
  · exact Keeps.throw _

theorem result {m : Watch ω α} (hm : Keeps I m) : Keeps I (result m) := Keeps.catching hm

theorem ofExcept (r : Except Error α) : Keeps I (ofExcept r : Watch ω α) := by
  cases r
  · exact Keeps.throw _
  · exact Keeps.pure _

theorem update (h : Calm I) {f : Ctx ω → Ctx ω}
    (hf : ∀ c, (f c).view = c.view ∧ SameClock c.loop (f c).loop) :
    Keeps I (Prog.update f : Watch ω Unit) := Keeps.update fun c => h.view c (hf c).1 (hf c).2

theorem call (h : Calm I) {f : Ctx ω → α × Ctx ω}
    (hf : ∀ c, (f c).2.view = c.view ∧ SameClock c.loop (f c).2.loop) :
    Keeps I (Prog.call f : Watch ω α) := Keeps.call fun c => h.view c (hf c).1 (hf c).2

theorem setLoop (h : Calm I) {f : WatchLoop → WatchLoop}
    (hf : ∀ l, ((f l).known = l.known ∧ (f l).config = l.config ∧ (f l).activeLow = l.activeLow) ∧
      SameClock l (f l)) : Keeps I (setLoop f : Watch ω Unit) :=
  h.update fun c => ⟨by simp [Ctx.view, (hf c.loop).1], (hf c.loop).2⟩

theorem emit (h : Calm I) {event : Event} (he : event.onOff = []) :
    Keeps I (emit event : Watch ω Unit) := Keeps.update fun _ => h.push he

theorem indexed (inRange : Bool) : Keeps I (indexed inRange : Watch ω Unit) :=
  Keeps.only fun _ => Keeps.throw _

theorem setLoopConfig (h : Calm I) (config : PinConfig) : Keeps I (Watch.setConfig config : Watch ω Unit) :=
  Keeps.bind loop fun _ => Keeps.bind (indexed _) fun _ => Keeps.update fun _ => h.setConfig config

theorem useDevice (h : Calm I) (device : Device) (m : Device.Io ω α) : Keeps I (useDevice device m) := by
  intro c hc
  simp only [Prog.exec, Watch.useDevice, ExceptT.run, StateT.run]
  split
  · exact h.view c rfl (Or.inr rfl) hc
  · exact h.view c rfl (Or.inr rfl) hc

theorem onDevice (h : Calm I) (m : Device.Io ω α) : Keeps I (onDevice m) := by
  intro c hc
  rcases hconn : c.loop.conn with _ | conn
  · simpa [Watch.onDevice, Watch.connection, Watch.loop, Prog.exec_bind, hconn] using hc
  · simp only [Watch.onDevice, Watch.connection, Watch.loop, Prog.exec_bind, Prog.exec_gets, hconn,
      Prog.exec_pure, Prog.exec_zoom]
    refine h.view c rfl (Or.inr ?_) hc
    rw [hconn]
    rfl

theorem checkTarget (config : PinConfig) : Keeps I (checkTarget config : Watch ω Unit) := by
  refine Keeps.bind loop fun l => ?_
  split
  · exact Keeps.pure _
  · dsimp only
    split
    · exact Keeps.throw _
    · exact Keeps.pure _

theorem failed (h : Calm I) (error : Error) : Keeps I (failed error : Watch ω Unit) := by
  refine Keeps.bind (h.setLoop fun l => ?_) fun _ => ?_
  · split <;> exact ⟨⟨rfl, rfl, rfl⟩, Or.inr rfl⟩
  · refine Keeps.bind (h.setLoop fun _ => ⟨⟨rfl, rfl, rfl⟩, Or.inr rfl⟩) fun _ => Keeps.bind loop fun _ => ?_
    split
    · exact h.emit rfl
    · exact Keeps.pure _

variable [World ω]

theorem instant (h : Calm I) : Keeps I (instant : Watch ω Instant) := h.call fun _ => ⟨rfl, Or.inr rfl⟩

theorem lost (h : Calm I) (error : Error) : Keeps I (lost error : Watch ω Unit) := by
  refine Keeps.bind loop fun l => ?_
  split
  · refine Keeps.bind (h.setLoop fun l => ?_) fun _ => Keeps.bind (h.emit rfl) fun _ =>
      Keeps.bind h.instant fun _ => h.setLoop fun _ => ⟨⟨rfl, rfl, rfl⟩, Or.inr rfl⟩
    unfold WatchLoop.dropConnection
    split
    · exact ⟨⟨rfl, rfl, rfl⟩, Or.inl rfl⟩
    · exact ⟨⟨rfl, rfl, rfl⟩, Or.inr rfl⟩
  · exact Keeps.pure _

theorem wrote (h : Calm I) (found config : PinConfig) : Keeps I (wrote found config : Watch ω Unit) := by
  refine Keeps.bind (h.setLoopConfig config) fun _ => ?_
  refine Keeps.bind (h.setLoop fun l => ⟨⟨rfl, rfl, rfl⟩, Or.inr ?_⟩) fun _ => ?_
  · simp [Function.comp_def]
  refine Keeps.bind h.instant fun _ => ?_
  exact Keeps.bind (h.setLoop fun _ => ⟨⟨rfl, rfl, rfl⟩, Or.inr rfl⟩) fun _ => Keeps.only fun _ => h.emit rfl

theorem restoreTarget (h : Calm I) : Keeps I (restoreTarget : Watch ω Unit) := by
  refine Keeps.bind loop fun l => ?_
  split
  · refine Keeps.bind (h.setLoop fun _ => ⟨⟨rfl, rfl, rfl⟩, Or.inr rfl⟩) fun _ =>
      Keeps.bind h.instant fun _ => ?_
    refine Keeps.bind (h.setLoop fun _ => ⟨⟨rfl, rfl, rfl⟩, Or.inr rfl⟩) fun _ => ?_
    refine Keeps.bind (result (h.onDevice _)) fun r => ?_
    split
    · exact h.lost _
    · refine Keeps.bind (h.setLoopConfig _) fun _ => ?_
      split
      · exact Keeps.pure _
      · refine Keeps.bind (result (h.onDevice _)) fun r => ?_
        split
        · refine Keeps.bind (h.setLoop fun _ => ⟨⟨rfl, rfl, rfl⟩, Or.inr rfl⟩) fun _ =>
            Keeps.bind loop fun _ => ?_
          exact Keeps.bind (h.emit rfl) fun _ => h.wrote _ _
        · exact Keeps.throw _
        · exact Keeps.bind h.instant fun _ => h.setLoop fun _ => ⟨⟨rfl, rfl, rfl⟩, Or.inr rfl⟩
        · exact h.lost _
  · exact Keeps.pure _

theorem configChanged (h : Calm I) : Keeps I (configChanged : Watch ω Unit) := by
  refine Keeps.bind (result (h.onDevice _)) fun r => ?_
  split
  · exact h.lost _
  · refine Keeps.bind loop fun _ => Keeps.bind (h.setLoopConfig _) fun _ => Keeps.bind loop fun _ => ?_
    split
    · split
      · exact h.emit rfl
      · exact Keeps.pure _
    · split
      · exact Keeps.pure _
      · split
        · exact h.restoreTarget
        · refine Keeps.bind h.instant fun _ => ?_
          dsimp only
          split
          · exact Keeps.bind h.instant fun _ => h.setLoop fun _ => ⟨⟨rfl, rfl, rfl⟩, Or.inr rfl⟩
          · exact h.restoreTarget

theorem setTarget (h : Calm I) (config : PinConfig) : Keeps I (setTarget config : Watch ω Unit) := by
  refine Keeps.bind (checkTarget config) fun _ => Keeps.bind loop fun _ =>
    Keeps.bind (h.setLoop fun _ => ⟨⟨rfl, rfl, rfl⟩, Or.inr rfl⟩) fun _ => Keeps.bind loop fun _ => ?_
  split
  · exact Keeps.pure _
  · refine Keeps.bind (h.setLoop fun _ => ⟨⟨rfl, rfl, rfl⟩, Or.inr rfl⟩) fun _ =>
      Keeps.bind (h.onDevice _) fun _ => Keeps.bind (h.setLoopConfig _) fun _ => ?_
    split
    · exact Keeps.pure _
    · refine Keeps.bind (result (h.onDevice _)) fun r => ?_
      split
      · exact h.wrote _ _
      · exact Keeps.bind (h.setLoop fun _ => ⟨⟨rfl, rfl, rfl⟩, Or.inr rfl⟩) fun _ => Keeps.throw _
      · exact Keeps.bind h.instant fun _ =>
          Keeps.bind (h.setLoop fun _ => ⟨⟨rfl, rfl, rfl⟩, Or.inr rfl⟩) fun _ => Keeps.throw _
      · exact Keeps.throw _

theorem scanLater (h : Calm I) : Keeps I (scanLater : Watch ω Unit) :=
  Keeps.bind h.instant fun _ => h.setLoop fun _ => ⟨⟨rfl, rfl, rfl⟩, Or.inr rfl⟩

theorem serve (h : Calm I) (request : Request) : Keeps I (serve request : Watch ω Unit) := by
  refine Keeps.bind (result ?_) fun _ => h.update fun _ => ⟨rfl, Or.inr rfl⟩
  cases request with
  | setTargetPins config => exact h.setTarget config
  | setOutputs levels =>
    refine Keeps.bind loop fun _ => ?_
    split
    · exact Keeps.throw _
    · exact h.onDevice _

end Calm

/-- A property of the context that following a report keeps: learning the ON/OFF of pins, telling what
    changed and reading the clocks. -/
structure Learns [World ω] (I : Ctx ω → Prop) : Prop where
  known : ∀ {c : Ctx ω} (known : U8 → Option Bool), I c → I { c with loop := { c.loop with known } }
  instant : ∀ {c : Ctx ω}, I c → I { c with world := (World.instant c.world).2 }
  systemTime : ∀ {c : Ctx ω}, I c → I { c with world := (World.systemTime c.world).2 }
  push : ∀ {c : Ctx ω} {event : Event}, event.isOnOff = true → I c → I (c.push event)

/-- A property of the context that `absorb` keeps: learning the ON/OFF of pins, telling what changed,
    reading the clocks and recording the report. -/
structure Absorbs [World ω] (I : Ctx ω → Prop) : Prop where
  known : ∀ {c : Ctx ω} (known : U8 → Option Bool), I c → I { c with loop := { c.loop with known } }
  instant : ∀ {c : Ctx ω}, I c → I { c with world := (World.instant c.world).2 }
  systemTime : ∀ {c : Ctx ω}, I c → I { c with world := (World.systemTime c.world).2 }
  push : ∀ {c : Ctx ω} {event : Event}, event.isOnOff = true → I c → I (c.push event)
  absorbed : ∀ {c : Ctx ω} (absorbed : List (Absorbed ω)), I c → I { c with absorbed }

namespace Learns
variable [World ω]

theorem emit (h : Learns I) {event : Event} (he : event.isOnOff = true) :
    Keeps I (emit event : Watch ω Unit) :=
  Keeps.update fun _ => h.push he

theorem levels (h : Learns I) (report : StatusReport) :
    ∀ gpios, Keeps I (absorbLevels report gpios : Watch ω _)
  | [] => Keeps.pure _
  | gpio :: gpios => by
    refine Keeps.bind (Keeps.bind Calm.loop fun l => ?_) fun _ => Keeps.bind (levels h report gpios)
      fun _ => Keeps.pure _
    dsimp only
    split
    · exact Keeps.bind (Keeps.update fun _ => h.known _) fun _ => Keeps.pure _
    · refine Keeps.bind (Keeps.only fun _ => h.emit rfl) fun _ => ?_
      exact Keeps.bind (Keeps.update fun _ => h.known _) fun _ => Keeps.pure _

theorem clockAt (h : Learns I) (startUs : Option U64) : Keeps I (clockAt? startUs : Watch ω _) := by
  cases startUs with
  | none => exact Keeps.pure _
  | some startUs =>
    refine Keeps.bind ?_ fun _ => Keeps.pure _
    refine Keeps.bind Calm.connection fun conn => Keeps.bind (Keeps.call fun _ => h.instant) fun now => ?_
    refine Keeps.bind (Keeps.call fun _ => h.systemTime) fun wall => ?_
    split
    · exact Keeps.pure _
    · exact Keeps.throw _

theorem event (h : Learns I) (report : StatusReport) (event : EdgeEvent) :
    Keeps I (absorbEvent report event : Watch ω Unit) := by
  refine Keeps.bind Calm.loop fun l => ?_
  split
  · exact Keeps.pure _
  · refine Keeps.bind (Calm.indexed _) fun _ => ?_
    refine Keeps.bind (Keeps.only fun _ => h.emit rfl) fun _ => Keeps.bind (h.clockAt _) fun _ => ?_
    exact Keeps.bind (h.emit rfl) fun _ => Keeps.update fun _ => h.known _

/-- Absorbing a report records it with the loop and the world before. -/
theorem absorb (h : Learns I) (report : StatusReport) {c : Ctx ω} {Q : Except Stop Unit → Ctx ω → Prop}
    (hc : I c) (hstop : ∀ e c', I c' → Q (.error e) c')
    (hrecord : ∀ c' events, I c' →
      Q (.ok ()) { c' with absorbed := c'.absorbed ++ [⟨report, c.loop, c.world, events, c'.loop⟩] }) :
    (absorb report).wp Q c := by
  unfold Watch.absorb
  rw [Prog.wp_bind, Prog.wp_gets, Prog.post_ok]
  refine Prog.wp_seq (R := fun _ => I) (Keeps.each (h.event report) _ c hc) (fun _ c1 h1 => ?_) hstop
  refine Prog.wp_seq (R := fun _ => I) (h.levels report _ c1 h1) (fun learned c2 h2 => ?_) hstop
  refine (setLoop_bind _ _).mpr ?_
  refine Prog.wp_seq (R := fun _ => I) (Keeps.only (fun _ => h.emit rfl) _ (h.known _ h2))
    (fun _ c3 h3 => ?_) hstop
  exact hrecord c3 _ h3

end Learns

namespace Absorbs
variable [World ω]

theorem learns (h : Absorbs I) : Learns I := ⟨h.known, h.instant, h.systemTime, h.push⟩

theorem absorb (h : Absorbs I) (report : StatusReport) : Keeps I (absorb report : Watch ω Unit) :=
  fun _ hc => h.learns.absorb (Q := fun _ => I) report hc (fun _ _ h' => h') fun _ _ h' => h.absorbed _ h'

end Absorbs

variable [World ω]

/-- A property of the view that the three operations on the view keep. -/
structure Stable (I : Ctx ω → Prop) : Prop where
  view : ∀ (c : Ctx ω) {c' : Ctx ω}, c'.view = c.view → I c → I c'
  push : ∀ {c : Ctx ω} {event : Event}, event.onOff = [] → I c → I (c.push event)
  setConfig : ∀ {c : Ctx ω} (config : PinConfig), I c → I { c with loop := c.loop.setConfig config }
  absorb : ∀ report {c : Ctx ω}, c.loop.conn.isSome = true → Clocked c → I c →
    I ((absorb report).exec c).2

theorem Stable.calm (h : Stable I) : Calm I where
  view c _ hview _ hc := h.view c hview hc
  push := h.push
  setConfig := h.setConfig

namespace Stable

theorem update (h : Stable I) {f : Ctx ω → Ctx ω} (hf : ∀ c, (f c).view = c.view) :
    Keeps I (Prog.update f : Watch ω Unit) := Keeps.update fun c => h.view c (hf c)

theorem setConn (h : Stable I) (conn : Connection) : Keeps I (setConn conn : Watch ω Unit) :=
  h.update fun _ => rfl

theorem status (h : Stable I) (report : StatusReport) (at' : Instant) (missed : ℕ) :
    Keeps I (status report at' missed : Watch ω Unit) := by
  intro c hc
  have hJ : Calm fun c => I c ∧ Clocked c := h.calm.and calm_clocked
  have hdrop : ∀ c : Ctx ω, I c ∧ Clocked c → I c := fun _ => And.left
  rcases hconn : c.loop.conn with _ | conn
  · simpa [Watch.status, Watch.loop, Watch.connection, Prog.exec_bind, hconn] using hc
  · simp only [Watch.status, Watch.loop, Watch.connection, Prog.exec_bind c, Prog.exec_gets, hconn,
      Prog.exec_pure]
    simp only [Watch.setConn, Watch.setLoop, Prog.exec_update]
    -- The report was just added to the clock of the connection.
    refine Keeps.bind_of hdrop ?_ (fun _ _ hs => ?_) ⟨h.view c rfl hc, ?_⟩
    · exact Keeps.only fun _ => hJ.update fun _ => ⟨rfl, Or.inr rfl⟩
    · refine Keeps.bind_of hdrop (hJ.emit rfl) (fun _ _ hs => ?_) hs
      refine Keeps.bind_of hdrop ?_ (fun _ _ hs => ?_) hs
      · exact Keeps.only fun _ => hJ.emit rfl
      refine Keeps.bind_of hdrop ?_ (fun _ s hs => ?_) hs
      · exact Keeps.only fun _ => hJ.configChanged
      simp only [Prog.exec_bind, Prog.exec_gets]
      split
      · exact hs.1
      · next hs' =>
        split
        · exact hs.1
        · exact h.absorb report (by rw [hs']; rfl) hs.2 hs.1
    · intro conn' hconn'
      cases hconn'
      exact DeviceClock.cur_add _ _ _

theorem received (h : Stable I) (data : List U8) (at' : Instant) :
    Keeps I (received data at' : Watch ω Unit) := by
  unfold Watch.received
  split
  · exact Keeps.pure _
  · split
    · exact Keeps.pure _
    · exact Keeps.bind Calm.connection fun _ => Keeps.bind (h.setConn _) fun _ => h.status _ _ _

theorem snapshot (h : Stable I) : Keeps I (snapshot : Watch ω Unit) := by
  refine Keeps.bind (Calm.result (h.calm.onDevice _)) fun r => ?_
  split
  · exact h.calm.lost _
  · refine Keeps.bind Calm.connection fun _ => Keeps.bind (h.setConn _) fun _ => ?_
    refine Keeps.bind (h.update fun _ => rfl) fun _ => Keeps.bind h.calm.instant fun _ => ?_
    exact Keeps.bind (Keeps.catching (h.status _ _ _)) fun _ => Keeps.pure _

theorem connected (h : Stable I) (entry : DeviceEntry) (info : DeviceInfo) (device : Device)
    (found : PinConfig) (driven : List U8) (awaitingConfig : Bool) :
    Keeps I (connected entry info device found driven awaitingConfig : Watch ω Unit) := by
  refine Keeps.bind (h.setConn _) fun _ => Keeps.bind (h.calm.setLoop fun _ => ⟨⟨rfl, rfl, rfl⟩, Or.inr rfl⟩)
    fun _ => ?_
  refine Keeps.bind Calm.loop fun _ => Keeps.bind (h.calm.setLoop fun _ => ⟨⟨rfl, rfl, rfl⟩, Or.inr rfl⟩)
    fun _ => ?_
  refine Keeps.bind (h.calm.setLoopConfig found) fun _ => Keeps.bind (h.calm.emit rfl) fun _ => ?_
  refine Keeps.bind ?_ fun _ => ?_
  · split
    · exact h.calm.emit rfl
    · exact Keeps.only fun _ => h.calm.emit rfl
  · split
    · exact Keeps.bind h.calm.instant fun _ => h.calm.setLoop fun _ => ⟨⟨rfl, rfl, rfl⟩, Or.inr rfl⟩
    · exact h.snapshot

theorem connect (h : Stable I) (entry : DeviceEntry) : Keeps I (connect entry : Watch ω Unit) := by
  refine Keeps.bind (h.calm.call fun _ => ⟨rfl, Or.inr rfl⟩) fun r =>
    Keeps.bind (Calm.ofExcept r) fun _ => ?_
  refine Keeps.bind (h.calm.call fun _ => ⟨rfl, Or.inr rfl⟩) fun _ =>
    Keeps.bind (h.calm.useDevice _ _) fun _ => ?_
  refine Keeps.bind (h.calm.setLoop fun _ => ⟨⟨rfl, rfl, rfl⟩, Or.inr rfl⟩) fun _ =>
    Keeps.bind (h.calm.useDevice _ _) fun _ => ?_
  refine Keeps.bind Calm.loop fun _ => ?_
  split
  · exact h.connected _ _ _ _ _ _
  · split
    · exact h.connected _ _ _ _ _ _
    · refine Keeps.bind (Calm.result (h.calm.useDevice _ _)) fun r => ?_
      split
      · exact Keeps.throw _
      · exact Keeps.throw _
      · exact h.connected _ _ _ _ _ _

theorem tryConnect (h : Stable I) : Keeps I (tryConnect : Watch ω Unit) := by
  refine Keeps.bind (h.calm.call fun _ => ⟨rfl, Or.inr rfl⟩) fun r => ?_
  split
  · exact Keeps.throw _
  · exact Keeps.bind (h.calm.failed _) fun _ => h.calm.scanLater
  · refine Keeps.bind Calm.loop fun l => ?_
    dsimp only
    split
    · exact Keeps.bind (h.calm.setLoop fun _ => ⟨⟨rfl, rfl, rfl⟩, Or.inr rfl⟩) fun _ => h.calm.scanLater
    · split
      · exact Keeps.throw _
      · refine Keeps.bind (h.calm.setLoop fun _ => ⟨⟨rfl, rfl, rfl⟩, Or.inr rfl⟩) fun _ => ?_
        refine Keeps.bind (Calm.result (h.connect _)) fun r => ?_
        split
        · exact Keeps.pure _
        · exact Keeps.bind (h.calm.failed _) fun _ => h.calm.scanLater

theorem attend (h : Stable I) : Keeps I (attend : Watch ω Unit) := by
  refine Keeps.bind h.calm.instant fun _ => Keeps.bind Calm.loop fun l => ?_
  split
  · exact Keeps.bind (h.calm.setLoop fun _ => ⟨⟨rfl, rfl, rfl⟩, Or.inr rfl⟩) fun _ => h.tryConnect
  · split
    · exact Keeps.bind (h.calm.setLoop fun _ => ⟨⟨rfl, rfl, rfl⟩, Or.inr rfl⟩) fun _ => h.calm.restoreTarget
    · split
      · refine Keeps.bind (h.calm.setLoop fun _ => ⟨⟨rfl, rfl, rfl⟩, Or.inr rfl⟩) fun _ => ?_
        split
        · exact Keeps.pure _
        · exact Keeps.bind (h.setConn _) fun _ => h.snapshot
      · split
        · exact Keeps.pure _
        · refine Keeps.bind (Calm.result (h.calm.onDevice _)) fun r => ?_
          split
          · exact h.calm.lost _
          · exact Keeps.pure _
          · exact Keeps.bind h.calm.instant fun _ => h.received _ _

/-- An iteration keeps what the operations on the view keep. -/
theorem iterate (h : Stable I) : Keeps I (iterate : Watch ω Bool) := by
  refine Keeps.bind (Keeps.gets _) fun _ => ?_
  split
  · exact Keeps.bind (h.update fun _ => rfl) fun _ => Keeps.bind (h.calm.serve _) fun _ => Keeps.pure _
  · refine Keeps.bind (h.update fun _ => rfl) fun _ => Keeps.bind (Keeps.gets _) fun _ => ?_
    split
    · exact Keeps.pure _
    · refine Keeps.bind (h.update fun _ => rfl) fun _ => Keeps.bind (Keeps.gets _) fun _ => ?_
      split
      · exact Keeps.pure _
      · exact Keeps.bind h.attend fun _ => Keeps.pure _

end Stable

end Watch

namespace Watcher
variable {ω : Type} [World ω] {I : Ctx ω → Prop}

/-- A property of the view that the operations on the view keep holds at the end of every run. -/
theorem stable_run (h : Watch.Stable I) {w : Watcher ω} (hw : I w.ctx) (inputs : List Input) :
    I (Lib.run step w inputs).ctx := by
  refine Lib.run_preserves (P := fun w : Watcher ω => I w.ctx) (fun w i hw => ?_) inputs hw
  have hfinish : ∀ (c : Ctx ω) error, I c → I (c.finish error) := fun c error hc => by
    refine h.view c ?_ hc
    cases error <;> simp [Ctx.finish, Ctx.view, WatchLoop.dropConnection] <;> split <;> simp
  cases i with
  | turn =>
    have hiterate := h.iterate w.ctx hw
    refine turn_of_wp hw ?_
    unfold Prog.wp
    dsimp only
    split
    · exact hiterate
    · exact hfinish _ _ hiterate
    · exact hfinish _ _ hiterate
    · exact hiterate
  | take => exact h.view w.ctx rfl hw
  | setTargetPins config =>
    simp only [step]
    split
    · exact hw
    · exact h.view w.ctx (by unfold Ctx.call; split <;> rfl) hw
  | setOutputs levels => exact h.view w.ctx (by simp only [step, Ctx.call]; split <;> rfl) hw
  | close => exact h.view w.ctx rfl hw

end Watcher

end Hidpin.Host
