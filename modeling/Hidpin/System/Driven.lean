import Hidpin.Host.LifeCycle
import Hidpin.System.Wire

/-! The pins that the writes of a watcher drive, and what its application learns of them, while other
    programs use the device. -/

namespace Hidpin.Host

/-- The event tells that a write, or a connection that was lost, drove the pin. The loop emits such an event
    in `wrote` and in `connected`, when a write of the same step is done. -/
def Event.Tells (n : Firmware.Gpio) : Event → Prop
  | .outputsReset gpios cause => cause ≠ .suspend ∧ n.toU8 ∈ gpios
  | _ => False

/-- The pins that an event says went back to their initial level. -/
def Event.resets : Event → List U8
  | .outputsReset gpios _ => gpios
  | _ => []

end Hidpin.Host

namespace Hidpin.System
open Firmware (Gpio)
open Host hiding Gpio gpioCount Device
open Host.Device (Io)
open Lib Lib.Prog

/-- The watcher had read another entry of the pin than the one it wrote. -/
def Write.Foreseen (x : Write) (n : Gpio) : Prop :=
  Firmware.Engine.sameEntry x.read (Firmware.payloadConfig x.payload) n = false

/-- The write of `connect`, when the watcher had been connected before: what was read is what the device
    answered first since it was opened. -/
def Write.Reconnects (x : Write) (everConnected : Bool) : Prop := x.reads = 1 ∧ everConnected = true

variable {ω : Type} {past : List Emitted} {done untold : List Write} {ever : Bool}

/-- A context after some events and writes. The pins that the writes drove were told, up to those of
    `untold`. -/
structure Told (past : List Emitted) (done untold : List Write) (ever : Bool) (c : Ctx (Wire ω)) : Prop where
  device : c.world.device.Inv
  sent : c.world.sent = none
  reads : c.loop.conn.isSome = true → 1 ≤ c.world.reads
  told : ∃ events writes, c.emitted = past ++ events ∧ c.world.writes = done ++ writes ++ untold ∧
    ∀ x ∈ writes, ∀ n level, .setOutput n level ∈ x.calls → x.Foreseen n ∨ x.Reconnects ever →
      ∃ e ∈ events, e.event.Tells n

namespace Told
variable {c c' : Ctx (Wire ω)}

theorem settled (h : Told past done untold ever c) :
    c.world.Settled c.world.writes c.world.read c.world.reads := ⟨h.device, h.sent, rfl, rfl, rfl⟩

theorem of (h : Told past done untold ever c) {read : Firmware.PinConfig} {reads : ℕ}
    (hw : c'.world.Settled c.world.writes read reads) (hemitted : c'.emitted = c.emitted)
    (hreads : c'.loop.conn.isSome = true → 1 ≤ reads) : Told past done untold ever c' where
  device := hw.device
  sent := hw.sent
  reads := by rw [hw.reads]; exact hreads
  told := by rw [hemitted, hw.writes]; exact h.told

theorem of_loop (h : Told past done untold ever c) {loop : WatchLoop}
    (hconn : loop.conn.isSome = true → c.loop.conn.isSome = true) :
    Told past done untold ever { c with loop } :=
  ⟨h.device, h.sent, fun hsome => h.reads (hconn hsome), h.told⟩

theorem world (h : Told past done untold ever c) (world : ω) :
    Told past done untold ever { c with world := { c.world with world } } :=
  ⟨h.device, h.sent, h.reads, h.told⟩

theorem push (h : Told past done untold ever c) (event : Event) :
    Told past done untold ever (c.push event) where
  device := h.device
  sent := h.sent
  reads := h.reads
  told := by
    obtain ⟨events, writes, hevents, hwrites, htold⟩ := h.told
    refine ⟨events ++ [⟨event, c.loop.config⟩],
      writes, by rw [Ctx.push, hevents, List.append_assoc], hwrites, ?_⟩
    intro x hx n level hcall hmet
    obtain ⟨e, he, htells⟩ := htold x hx n level hcall hmet
    exact ⟨e, List.mem_append_left _ he, htells⟩

/-- The last write counts as told once the events say what it drove. -/
theorem close {x : Write} (h : Told past done [x] ever c)
    (hx : ∀ n level, .setOutput n level ∈ x.calls → x.Foreseen n ∨ x.Reconnects ever →
      ∃ e ∈ c.emitted.drop past.length, e.event.Tells n) : Told past done [] ever c where
  device := h.device
  sent := h.sent
  reads := h.reads
  told := by
    obtain ⟨events, writes, hevents, hwrites, htold⟩ := h.told
    refine ⟨events, writes ++ [x], hevents, by rw [hwrites, List.append_nil, List.append_assoc], ?_⟩
    intro y hy n level hcall hmet
    rcases List.mem_append.mp hy with hy | hy
    · exact htold y hy n level hcall hmet
    · obtain rfl := List.mem_singleton.mp hy
      rw [hevents, List.drop_left] at hx
      exact hx n level hcall hmet

/-- An event that tells of the pins the last write drove. -/
theorem tell {x : Write} (h : Told past done [x] ever c) {event : Event}
    (hevent : ∀ n level, .setOutput n level ∈ x.calls → x.Foreseen n ∨ x.Reconnects ever → event.Tells n) :
    Told past done [] ever (c.push event) := by
  refine (h.push event).close fun n level hcall hmet =>
    ⟨⟨event, c.loop.config⟩, ?_, hevent n level hcall hmet⟩
  obtain ⟨events, -, hevents, -⟩ := h.told
  rw [Ctx.push, hevents, List.append_assoc, List.drop_left]
  exact List.mem_append_right _ (List.mem_singleton_self _)

end Told

/-- A pin that a Set drives, and that was foreseen, is one of the driven outputs. -/
theorem Write.Sets.driven {x : Write} {found config : PinConfig} {requestId : U8} {reads : ℕ} {n : Gpio}
    {level : Bool} (h : x.Sets (payloadOf config requestId) found.toFirmware reads)
    (hcall : .setOutput n level ∈ x.calls) :
    (config n).isOutput = true ∧ (x.Foreseen n → n.toU8 ∈ drivenOutputs found config) := by
  have hconfig : Firmware.payloadConfig x.payload = config.toFirmware := by
    rw [h.payload, payloadOf, PinConfigReport.payloadConfig_encode]
  have houtput : (config n).isOutput = true := by
    have hmode := h.calls n level hcall
    rw [hconfig] at hmode
    have hsome : some (config n).mode = some PinMode.output := by
      rw [← PinMode.ofU8_toU8, show (config n).mode.toU8 = PinMode.output.toU8 from hmode, PinMode.ofU8_toU8]
    exact decide_eq_true (Option.some.inj hsome)
  refine ⟨houtput, fun hforeseen => ?_⟩
  rw [Foreseen, hconfig, h.read] at hforeseen
  refine List.mem_map.mpr ⟨n, List.mem_filter.mpr ⟨List.mem_finRange n, ?_⟩, rfl⟩
  rw [houtput, Bool.true_and, decide_eq_true_iff]
  intro hsame
  refine absurd hforeseen (Bool.not_eq_false _ |>.mpr (decide_eq_true ?_))
  exact ⟨congrArg (fun p : PinSetting => p.mode.toU8) hsame, congrArg PinSetting.param hsame⟩

/-! ### What is foreseen -/

/-- As long as nothing writes the configuration, it stays what it was. -/
theorem Wire.config_moved {w : Wire ω} (h : ∀ m ∈ (w.script.headD ([], 0)).1, ¬ m.Writes) :
    w.moved.device.engine.config = w.device.engine.config := by
  rw [moved]
  dsimp only
  generalize (w.script.headD ([], 0)).1 = moves at h
  generalize w.device = d
  induction moves generalizing d with
  | nil => rfl
  | cons m moves ih =>
    obtain ⟨hm, hmoves⟩ := List.forall_mem_cons.mp h
    rw [List.foldl_cons, ih hmoves, Move.config_apply hm]

theorem Wire.script_moved (w : Wire ω) : ∀ k : ℕ, (moved^[k] w).script = w.script.drop k
  | 0 => rfl
  | k + 1 => by
    rw [Function.iterate_succ_apply']
    exact (congrArg List.tail (script_moved w k)).trans List.tail_drop

/-- After a read and so many accesses with no write between them, the configuration is the one that was
    read. -/
theorem Wire.config_since_read (w : Wire ω) :
    ∀ {k : ℕ}, (∀ moves ∈ w.script.take k, ∀ m ∈ moves.1, ¬ m.Writes) →
      (moved^[k] w.readBack).device.engine.config = (moved^[k] w.readBack).read
  | 0, _ => rfl
  | k + 1, h => by
    have hbefore := w.config_since_read fun moves hmoves =>
      h moves (List.take_subset_take_left _ (Nat.le_succ k) hmoves)
    have hmoves : ∀ m ∈ ((moved^[k] w.readBack).script.headD ([], 0)).1, ¬ m.Writes := by
      rw [script_moved, List.headD_eq_head?_getD, List.head?_drop]
      cases hat : w.script[k]? with
      | none => simp [readBack, hat]
      | some moves =>
        have hmem : moves ∈ w.script.take (k + 1) := List.mem_of_getElem? (i := k) (by simp [hat])
        simpa [readBack, hat] using h moves hmem
    rw [Function.iterate_succ_apply']
    exact (config_moved hmoves).trans hbefore

/-- A Set with no other write since the watcher read the configuration is foreseen at every pin that it
    drives: `k` counts the accesses after the read, with the Set's own. -/
theorem Wire.foreseen_since_read (w : Wire ω) {k : ℕ}
    (h : ∀ moves ∈ w.script.take k, ∀ m ∈ moves.1, ¬ m.Writes) {payload : List U8} {nowUs : U64} {x : Write}
    (hx : ((moved^[k] w.readBack).written (Host.reportIdPinConfig :: payload) nowUs).sent = some x)
    {n : Gpio} {level : Bool} (hcall : .setOutput n level ∈ x.calls) : x.Foreseen n := by
  have hread := w.config_since_read h
  generalize moved^[k] w.readBack = w' at hx hread
  obtain rfl := Option.some.inj hx
  rw [Write.Foreseen, ← hread]
  exact (Firmware.Engine.entry_of_setOutput hcall).2

/-! ### Methods that write nothing -/

open Host.Watch
variable {α : Type}

/-- A method keeps what was told. -/
def Steady (m : Watch (Wire ω) α) : Prop := ∀ past done untold ever, Keeps (Told past done untold ever) m

/-- The connection is there only if it was. -/
def SameConn (l l' : WatchLoop) : Prop := l'.conn.isSome = true → l.conn.isSome = true

namespace Steady

theorem pure (a : α) : Steady (Pure.pure a : Watch (Wire ω) α) := fun _ _ _ _ => Keeps.pure _

theorem bind {β : Type} {m : Watch (Wire ω) α} {f : α → Watch (Wire ω) β} (hm : Steady m)
    (hf : ∀ a, Steady (f a)) : Steady (m >>= f) := fun past done untold ever =>
  Keeps.bind (hm past done untold ever) fun a => hf a past done untold ever

theorem loop : Steady (loop : Watch (Wire ω) WatchLoop) := fun _ _ _ _ => Keeps.gets _

theorem setLoop {f : WatchLoop → WatchLoop} (hf : ∀ l, SameConn l (f l)) :
    Steady (setLoop f : Watch (Wire ω) Unit) := fun _ _ _ _ => Keeps.update fun c h => h.of_loop (hf c.loop)

theorem emit (event : Event) : Steady (emit event : Watch (Wire ω) Unit) :=
  fun _ _ _ _ => Keeps.update fun _ h => h.push event

theorem call (f : ω → α × ω) : Steady (Prog.call fun c : Ctx (Wire ω) =>
    ((Wire.pass f c.world).1, { c with world := (Wire.pass f c.world).2 })) :=
  fun _ _ _ _ => Keeps.call fun _ h => h.world _

theorem failed (error : Error) : Steady (failed error : Watch (Wire ω) Unit) := by
  refine bind (setLoop fun l => ?_) fun _ => bind (setLoop fun _ => id) fun _ => bind loop fun _ => ?_
  · split <;> exact id
  · split
    · exact emit _
    · exact pure _

theorem onDevice {m : Io (Wire ω) α} (hm : Wire.Quiet m) : Steady (Watch.onDevice m) := by
  intro past done untold ever c h
  rcases hconn : c.loop.conn with _ | conn
  · simpa [Watch.onDevice, Watch.connection, Watch.loop, Prog.exec_bind, hconn] using h
  · have hQ : (Watch.onDevice m).wp (fun _ => Told past done untold ever) c := by
      rw [wp_onDevice conn hconn]
      refine h.of (hm _ _ _ (conn.device, c.world) h.settled) rfl fun _ => h.reads ?_
      rw [hconn]
      rfl
    exact hQ

theorem wp {m : Watch (Wire ω) α} {c : Ctx (Wire ω)} (hm : Steady m) (h : Told past done untold ever c) :
    m.wp (fun _ => Told past done untold ever) c := hm past done untold ever c h

variable [World ω]

theorem instant : Steady (instant : Watch (Wire ω) Instant) := call World.instant

theorem lost (error : Error) : Steady (lost error : Watch (Wire ω) Unit) := by
  refine bind loop fun l => ?_
  split
  · refine bind (setLoop fun l => ?_) fun _ => bind (emit _) fun _ =>
      bind instant fun _ => setLoop fun _ => id
    unfold WatchLoop.dropConnection SameConn
    split
    · simp
    · exact id
  · exact pure _

theorem scanLater : Steady (scanLater : Watch (Wire ω) Unit) := bind instant fun _ => setLoop fun _ => id

theorem absorb (report : StatusReport) : Steady (absorb report : Watch (Wire ω) Unit) :=
  fun past done untold ever => by
    have hI : Absorbs (Told (ω := ω) past done untold ever) :=
      { known := fun _ h => h.of_loop id
        instant := fun h => h.world _
        systemTime := fun h => h.world _
        push := fun _ h => h.push _
        absorbed := fun _ h => ⟨h.device, h.sent, h.reads, h.told⟩ }
    exact hI.absorb report

end Steady

/-! ### Methods that write -/

section Methods
variable [World ω] {c : Ctx (Wire ω)} {conn : Connection}

/-- A read of the configuration of a connected device. It is not the first one. -/
theorem told_getPinConfig (hconn : c.loop.conn = some conn) (h : Told past done untold ever c)
    (hfaithful : Faithful c) : (onDevice Host.Device.getPinConfig).wp (post
      (fun report c' => Told past done untold ever c' ∧ Faithful c' ∧
        c'.world.read = report.config.toFirmware ∧ 2 ≤ c'.world.reads ∧ c'.loop.conn.isSome = true)
      fun _ c' => Told past done untold ever c' ∧ Faithful c') c := by
  have hreads := h.reads (by rw [hconn]; rfl)
  rw [wp_onDevice conn hconn]
  refine wp_mono (Wire.settled_getPinConfig h.settled) fun r s hs => ?_
  cases r with
  | ok report =>
    refine ⟨h.of hs rfl fun _ => Nat.le_succ_of_le hreads, hfaithful.of_view rfl, hs.read, ?_, rfl⟩
    exact (Nat.succ_le_succ hreads).trans hs.reads.ge
  | error e => exact ⟨h.of hs rfl fun _ => hreads, hfaithful.of_view rfl⟩

/-- A call of `set_pin_config` that succeeds leaves one write to tell of. -/
theorem told_setPinConfig {found : PinConfig} (config : PinConfig) (hconn : c.loop.conn = some conn)
    (h : Told past done [] ever c) (hfaithful : Faithful c) (hread : c.world.read = found.toFirmware)
    (hreads : 2 ≤ c.world.reads) :
    (onDevice (Host.Device.setPinConfig config)).wp (post
      (fun _ c' => ∃ x, Told past done [x] ever c' ∧ Faithful c' ∧
        (∃ requestId, x.Sets (payloadOf config requestId) found.toFirmware c.world.reads) ∧
        c'.loop.conn.isSome = true)
      fun _ c' => Told past done [] ever c' ∧ Faithful c') c := by
  rw [wp_onDevice conn hconn]
  refine wp_mono (Wire.settled_setPinConfig config h.settled) fun r s hs => ?_
  cases r with
  | ok _ =>
    obtain ⟨x, requestId, hs, hsets⟩ := hs
    refine ⟨x, ⟨hs.device, hs.sent, fun _ => hs.reads ▸ by omega, ?_⟩, hfaithful.of_view rfl,
      ⟨requestId, hread ▸ hsets⟩, rfl⟩
    obtain ⟨events, writes, hevents, hwrites, htold⟩ := h.told
    exact ⟨events, writes, hevents, by rw [Ctx.withDevice, hs.writes, hwrites, List.append_nil], htold⟩
  | error e => exact ⟨h.of hs.1 rfl fun _ => by have := hs.2; omega, hfaithful.of_view rfl⟩

theorem told_wrote {found config : PinConfig} {x : Write} {requestId : U8} {reads : ℕ}
    (h : Told past done [x] ever c) (hfaithful : Faithful c)
    (hsets : x.Sets (payloadOf config requestId) found.toFirmware reads) (hreads : 2 ≤ reads) :
    (wrote found config).wp (fun _ => Told past done [] ever) c := by
  have hforeseen : ∀ n, x.Foreseen n ∨ x.Reconnects ever → x.Foreseen n := fun n hmet =>
    hmet.resolve_right fun hre => by have := hre.1; have := hsets.reads; omega
  refine setConfig_sound hfaithful ?_
  rw [setLoop_bind, instant_bind, setLoop_bind, wp_only]
  have h1 : Told past done [x] ever { c with
      world := (World.instant c.world).2
      loop := { c.loop.setConfig config with
        conn := (c.loop.setConfig config).conn.map fun conn => { conn with awaitingConfig := true }
        settleAt := some ((World.instant c.world).1 + settleTimeout) } } :=
    (h.world _).of_loop fun hsome => by rw [Option.isSome_map] at hsome; exact hsome
  refine ⟨fun _ => (wp_emit _ _).mpr (h1.tell fun n level hcall hmet => ?_), fun hnone =>
    h1.close fun n level hcall hmet => ?_⟩
  · exact ⟨by decide, (hsets.driven hcall).2 (hforeseen n hmet)⟩
  · have hmem := (hsets.driven hcall).2 (hforeseen n hmet)
    rw [not_not.mp hnone] at hmem
    cases hmem

theorem told_restoreTarget (h : Told past done [] ever c) (hfaithful : Faithful c) :
    restoreTarget.wp (fun _ => Told past done [] ever) c := by
  unfold restoreTarget
  rw [loop_bind]
  split
  · next target conn htarget hconn =>
    rw [setLoop_bind, instant_bind, setLoop_bind, wp_bind, wp_result]
    have h1 : Told past done [] ever { c with
        world := (World.instant c.world).2
        loop := { c.loop with restoreAt := none, lastRestore := some (World.instant c.world).1 } } :=
      (h.world _).of_loop id
    refine wp_mono (told_getPinConfig hconn h1 (hfaithful.of_view rfl)) fun r c1 hr => ?_
    rcases r with (e | e | _ | _) | report
    · exact (Steady.lost e).wp hr.1
    · exact hr.1
    · exact hr.1
    · exact hr.1
    · obtain ⟨h2, hfaithful2, hread, hreads, hsome⟩ := hr
      obtain ⟨conn2, hconn2⟩ := Option.isSome_iff_exists.mp hsome
      rw [caught_ok, post_ok]
      refine setConfig_sound hfaithful2 ?_
      have h3 : Told past done [] ever { c1 with loop := c1.loop.setConfig report.config } := h2.of_loop id
      have hfaithful3 := stable_faithful.setConfig report.config hfaithful2
      split
      · exact h3
      rw [wp_bind, wp_result]
      refine wp_mono (told_setPinConfig target hconn2 h3 hfaithful3 hread hreads) fun r c2 hr => ?_
      rcases r with (e | e | _ | _) | _
      · dsimp only [caught, Stop.toError, post_ok]
        split
        · next heq => cases heq
        · exact hr.1
        · rw [instant_bind]
          exact (hr.1.world _).of_loop id
        · exact (Steady.lost _).wp hr.1
      · exact hr.1
      · exact hr.1
      · exact hr.1
      · obtain ⟨x, h4, hfaithful4, ⟨requestId, hsets⟩, -⟩ := hr
        rw [caught_ok, post_ok, setLoop_bind, loop_bind, emit_bind]
        have h5 : Told past done [x] ever
            { c2 with loop := { c2.loop with restoreCount := c2.loop.restoreCount + 1 } } :=
          h4.of_loop id
        have hfaithful5 : Faithful
            { c2 with loop := { c2.loop with restoreCount := c2.loop.restoreCount + 1 } } :=
          hfaithful4.of_view rfl
        exact told_wrote (h5.push _) (hfaithful5.push rfl) hsets hreads
  · exact h

theorem told_configChanged (hconn : c.loop.conn = some conn) (h : Told past done [] ever c)
    (hfaithful : Faithful c) : configChanged.wp (fun _ => Told past done [] ever) c := by
  unfold configChanged
  rw [wp_bind, wp_result]
  refine wp_mono (told_getPinConfig hconn h hfaithful) fun r c1 hr => ?_
  rcases r with (e | e | _ | _) | report
  · exact (Steady.lost e).wp hr.1
  · exact hr.1
  · exact hr.1
  · exact hr.1
  · obtain ⟨h1, hfaithful1, -⟩ := hr
    rw [caught_ok, post_ok, loop_bind]
    refine setConfig_sound hfaithful1 ?_
    have h2 : Told past done [] ever { c1 with loop := c1.loop.setConfig report.config } := h1.of_loop id
    have hfaithful2 := stable_faithful.setConfig report.config hfaithful1
    rw [loop_bind]
    split
    · split
      · exact h2.push _
      · exact h2
    · split
      · exact h2
      split
      · exact told_restoreTarget h2 hfaithful2
      · rw [instant_bind]
        dsimp only
        split
        · rw [instant_bind]
          exact ((h2.world _).world _).of_loop id
        · exact told_restoreTarget (h2.world _) (hfaithful2.of_view rfl)

theorem told_status (report : StatusReport) (at' : Instant) (missed : ℕ) (hconn : c.loop.conn = some conn)
    (h : Told past done [] ever c) (hfaithful : Faithful c) :
    (status report at' missed).wp (fun _ => Told past done [] ever) c := by
  have hconnected : ∀ {c' : Ctx (Wire ω)}, c'.world = c.world → c'.emitted = c.emitted →
      Told past done [] ever c' := fun hworld hemitted =>
    h.of (by rw [hworld]; exact h.settled) hemitted fun _ => h.reads (by rw [hconn]; rfl)
  unfold status
  rw [loop_bind, connection_bind hconn, setConn_bind]
  refine wp_then (R := fun _ c' => Told past done [] ever c' ∧ Faithful c' ∧
    c'.loop.conn.isSome = true) ?_ ?_
  · rw [wp_only]
    exact ⟨fun _ => ⟨hconnected rfl rfl, hfaithful.of_view rfl, rfl⟩,
      fun _ => ⟨hconnected rfl rfl, hfaithful.of_view rfl, rfl⟩⟩
  rintro _ c1 ⟨h1, hfaithful1, hconn1⟩
  rw [emit_bind]
  have h2 := h1.push (.statusReceived report missed (c.loop.onOff report))
  have hfaithful2 : Faithful (c1.push (.statusReceived report missed (c.loop.onOff report))) :=
    hfaithful1.push rfl
  refine wp_then (R := fun _ c' => Told past done [] ever c' ∧ Faithful c' ∧
    c'.loop.conn.isSome = true) ?_ ?_
  · rw [wp_only, wp_emit]
    exact ⟨fun _ => ⟨h2.push _, hfaithful2.push rfl, hconn1⟩, fun _ => ⟨h2, hfaithful2, hconn1⟩⟩
  rintro _ c2 ⟨h3, hfaithful3, hconn3⟩
  obtain ⟨conn3, hconn3⟩ := Option.isSome_iff_exists.mp hconn3
  refine wp_seq (R := fun _ => Told past done [] ever) ?_ (fun _ c3 h4 => ?_) fun _ _ h' => h'
  · rw [wp_only]
    exact ⟨fun _ => told_configChanged hconn3 h3 hfaithful3, fun _ => h3⟩
  rw [loop_bind]
  split
  · exact h4
  · split
    · exact h4
    · exact (Steady.absorb report).wp h4

theorem told_received (data : List U8) (at' : Instant) (hconn : c.loop.conn = some conn)
    (h : Told past done [] ever c) (hfaithful : Faithful c) :
    (received data at').wp (fun _ => Told past done [] ever) c := by
  unfold received
  split
  · exact h
  · split
    · exact h
    · next report _ =>
      rw [connection_bind hconn, setConn_bind]
      exact told_status report at' _ rfl (h.of_loop fun _ => by rw [hconn]; rfl) (hfaithful.of_view rfl)

theorem told_snapshot (hconn : c.loop.conn = some conn) (h : Told past done [] ever c)
    (hfaithful : Faithful c) : snapshot.wp (fun _ => Told past done [] ever) c := by
  have hdevice := (Steady.onDevice Wire.Quiet.requestStatus).wp h
  unfold snapshot
  rw [wp_bind, wp_result]
  rw [wp_onDevice conn hconn] at hdevice ⊢
  refine wp_mono hdevice fun r s h1 => ?_
  rcases r with (e | e | _ | _) | report
  · exact (Steady.lost e).wp h1
  · exact h1
  · exact h1
  · exact h1
  · rw [caught_ok, post_ok]
    refine (connection_bind rfl _).mpr ?_
    rw [setConn_bind, update_bind, instant_bind, wp_bind, wp_catching]
    refine wp_mono (told_status report _ 0 rfl (h1.of (h1.settled.world _) rfl fun _ => h1.reads rfl) ?_)
      fun r c' h' => ?_
    · exact hfaithful.of_view rfl
    · rcases r with (_ | _ | _ | _) | _ <;> exact h'

theorem told_setTarget (config : PinConfig) (h : Told past done [] ever c) (hfaithful : Faithful c) :
    (setTarget config).wp (fun _ => Told past done [] ever) c := by
  unfold setTarget
  refine wp_seq (R := fun _ c' => Told past done [] ever c' ∧ Faithful c') ?_ (fun _ c1 h1 => ?_)
    fun _ _ h' => h'.1
  · exact ⟨Calm.checkTarget config c h, Calm.checkTarget config c hfaithful⟩
  rw [loop_bind, setLoop_bind, loop_bind]
  have h2 : Told past done [] ever { c1 with loop := { c1.loop with target := some config } } :=
    h1.1.of_loop id
  split
  · exact h2
  next conn hconn =>
  rw [setLoop_bind]
  have h3 : Told past done [] ever
      { c1 with loop := { c1.loop with target := some config, restoreAt := none } } :=
    h1.1.of_loop id
  refine wp_seq (told_getPinConfig hconn h3 (h1.2.of_view rfl)) ?_ fun _ _ h' => h'.1
  rintro report c2 ⟨h4, hfaithful4, hread, hreads, hsome⟩
  obtain ⟨conn4, hconn4⟩ := Option.isSome_iff_exists.mp hsome
  refine setConfig_sound hfaithful4 ?_
  have h5 : Told past done [] ever { c2 with loop := c2.loop.setConfig report.config } := h4.of_loop id
  have hfaithful5 := stable_faithful.setConfig report.config hfaithful4
  split
  · exact h5
  rw [wp_bind, wp_result]
  refine wp_mono (told_setPinConfig config hconn4 h5 hfaithful5 hread hreads) fun r c3 hr => ?_
  rcases r with (e | e | _ | _) | _
  · dsimp only [caught, Stop.toError, post_ok]
    split
    · next heq => cases heq
    · rw [setLoop_bind]
      exact hr.1.of_loop id
    · rw [instant_bind, setLoop_bind]
      exact (hr.1.world _).of_loop id
    · exact hr.1
  · exact hr.1
  · exact hr.1
  · exact hr.1
  · obtain ⟨x, h6, hfaithful6, ⟨requestId, hsets⟩, -⟩ := hr
    exact told_wrote h6 hfaithful6 hsets hreads

theorem told_serve (request : Request) (h : Told past done [] ever c) (hfaithful : Faithful c) :
    (serve request).wp (fun _ => Told past done [] ever) c := by
  unfold serve
  rw [wp_bind, wp_result]
  refine wp_mono (Q := fun _ => Told past done [] ever) ?_ fun r c1 h1 => ?_
  · cases request with
    | setTargetPins config => exact told_setTarget config h hfaithful
    | setOutputs levels =>
      refine (loop_bind _).mpr ?_
      split
      · exact h
      · exact (Steady.onDevice (Wire.Quiet.setOutputs levels)).wp h
  · rcases r with (e | e | _ | _) | _
    · exact ⟨h1.device, h1.sent, h1.reads, h1.told⟩
    · exact h1
    · exact h1
    · exact h1
    · exact ⟨h1.device, h1.sent, h1.reads, h1.told⟩

/-! ### Connecting -/

/-- A new connection tells of the last write: of the outputs of its configuration when the watcher was
    connected before, and else of those that the write changed. -/
theorem told_connected (entry : DeviceEntry) (info : DeviceInfo) (device : Host.Device) {found : PinConfig}
    {driven : List U8} (awaitingConfig : Bool) (h : Told past done untold ever c) (hfaithful : Faithful c)
    (hever : c.loop.everConnected = ever) (hreads : 1 ≤ c.world.reads)
    (huntold : untold = [] ∨ ∃ x, untold = [x] ∧ ∀ n level, .setOutput n level ∈ x.calls →
      (found n).isOutput = true ∧ (x.Foreseen n → n.toU8 ∈ driven)) :
    (connected entry info device found driven awaitingConfig).wp (fun _ => Told past done [] ever) c := by
  unfold connected
  rw [setConn_bind, setLoop_bind, loop_bind, setLoop_bind]
  generalize hloop : ({ c.loop.resetFailures with
    conn := some ⟨device, .empty, none, none, awaitingConfig⟩, everConnected := true } : WatchLoop) = l
  have hconn : l.conn.isSome = true := by rw [← hloop]; rfl
  have hopened : Faithful { c with loop := l } := hfaithful.of_view (by rw [← hloop]; rfl)
  have h1 : Told past done untold ever (({ c with loop := l.setConfig found } : Ctx (Wire ω)).push
      (.connected entry.serial entry.path info found c.loop.everConnected)) :=
    Told.push (c := { c with loop := l.setConfig found }) ⟨h.device, h.sent, fun _ => hreads, h.told⟩ _
  have hfaithful1 : Faithful (({ c with loop := l.setConfig found } : Ctx (Wire ω)).push
      (.connected entry.serial entry.path info found c.loop.everConnected)) :=
    Faithful.push (stable_faithful.setConfig found hopened) rfl
  subst hloop
  refine setConfig_sound hopened ?_
  rw [emit_bind]
  refine wp_then (R := fun _ c' => Told past done [] ever c' ∧ Faithful c' ∧
    c'.loop.conn.isSome = true) ?_ ?_
  · rcases huntold with rfl | ⟨x, rfl, hx⟩
    · split
      · exact (wp_emit _ _).mpr ⟨h1.push _, hfaithful1.push rfl, hconn⟩
      · exact (wp_only _ _).mpr ⟨fun _ => (wp_emit _ _).mpr ⟨h1.push _, hfaithful1.push rfl, hconn⟩,
          fun _ => ⟨h1, hfaithful1, hconn⟩⟩
    · split
      · refine (wp_emit _ _).mpr ⟨h1.tell fun n level hcall _ => ?_, hfaithful1.push rfl, hconn⟩
        exact ⟨by decide, mem_outputs.mpr (hx n level hcall).1⟩
      · next hnot =>
        -- On the first connection only what was foreseen counts.
        have hdriven : ∀ n level, .setOutput n level ∈ x.calls → x.Foreseen n ∨ x.Reconnects ever →
            n.toU8 ∈ driven := by
          rintro n level hcall (hforeseen | hre)
          · exact (hx n level hcall).2 hforeseen
          · refine absurd ⟨hever.trans hre.2, ?_⟩ hnot
            exact List.ne_nil_of_mem (mem_outputs.mpr (hx n level hcall).1)
        refine (wp_only _ _).mpr ⟨fun _ => (wp_emit _ _).mpr ⟨h1.tell fun n level hcall hmet => ?_,
            hfaithful1.push rfl, hconn⟩,
          fun hnone => ⟨h1.close fun n level hcall hmet => ?_, hfaithful1, hconn⟩⟩
        · exact ⟨by decide, hdriven n level hcall hmet⟩
        · have hmem := hdriven n level hcall hmet
          rw [not_not.mp hnone] at hmem
          cases hmem
  · rintro _ c1 ⟨h2, hfaithful2, hconn2⟩
    obtain ⟨conn, hconn2⟩ := Option.isSome_iff_exists.mp hconn2
    split
    · rw [instant_bind, wp_setLoop]
      exact (h2.world _).of_loop id
    · exact told_snapshot hconn2 h2 hfaithful2

/-- A context in which a device is being opened, after so many reads of its configuration. -/
structure Opening (past : List Emitted) (done : List Write) (ever : Bool) (reads : ℕ) (c : Ctx (Wire ω)) :
    Prop where
  told : Told past done [] ever c
  faithful : Faithful c
  conn : c.loop.conn = none
  everConnected : c.loop.everConnected = ever
  reads : c.world.reads = reads

theorem Opening.of {reads reads' : ℕ} {read : Firmware.PinConfig} {w : Wire ω}
    (h : Opening past done ever reads c) (hw : w.Settled c.world.writes read reads') :
    Opening past done ever reads' { c with world := w } where
  told := h.told.of hw rfl fun hsome => by rw [h.conn] at hsome; cases hsome
  faithful := h.faithful.of_view rfl
  conn := h.conn
  everConnected := h.everConnected
  reads := hw.reads

theorem told_connect (entry : DeviceEntry) {reads : ℕ} (h : Opening past done ever reads c) :
    (connect entry).wp (fun _ => Told past done [] ever) c := by
  unfold connect
  rw [wp_bind, wp_call, post_ok]
  have h1 : Opening past done ever 0 { c with world := (World.openDevice entry c.world).2 } :=
    h.of ⟨h.told.device, rfl, rfl, rfl, rfl⟩
  rcases (World.openDevice entry c.world).1 with e | _
  · exact h1.told
  refine wp_then (R := fun _ => Opening past done ever 0) h1 fun _ c1 h1 => ?_
  rw [wp_bind, wp_call, post_ok, wp_bind]
  have h2 : Opening past done ever 0 { c1 with world := (World.seed c1.world).2 } :=
    h1.of ⟨h1.told.device, h1.told.sent, rfl, rfl, h1.reads⟩
  refine wp_useDevice (Wire.Quiet.readInfo.wp h2.told.settled) (fun info d3 w3 h3 => ?_)
    fun e d3 w3 h3 => (h2.of h3).told
  rw [post_ok, setLoop_bind, wp_bind]
  have h4 := h2.of h3
  replace h4 : Opening past done ever 0
      { c1 with world := w3, loop := { c1.loop with info := some info } } :=
    ⟨h4.told.of_loop id, h4.faithful.of_view rfl, h4.conn, h4.everConnected, h4.reads.trans h2.reads⟩
  refine wp_useDevice (Wire.settled_getPinConfig h4.told.settled) (fun report d5 w5 hread => ?_)
    fun e d5 w5 hread => (h4.of hread).told
  rw [post_ok, loop_bind]
  have h6 := h4.of hread
  have hreads : 1 ≤ w5.reads := hread.reads ▸ Nat.succ_pos _
  split
  · exact told_connected _ _ _ _ h6.told h6.faithful h6.everConnected hreads (Or.inl rfl)
  · next target _ =>
    split
    · exact told_connected _ _ _ _ h6.told h6.faithful h6.everConnected hreads (Or.inl rfl)
    rw [wp_bind, wp_result]
    refine wp_useDevice (Wire.settled_setPinConfig target h6.told.settled) (fun _ d7 w7 hwritten => ?_)
      fun e d7 w7 hfailed => ?_
    · obtain ⟨x, requestId, hx, hsets⟩ := hwritten
      rw [caught_ok, post_ok]
      have hfound : w5.read = report.config.toFirmware := hread.read
      rw [hfound] at hsets
      have h7 : Told past done [x] ever
          { c1 with world := w7, loop := { c1.loop with info := some info } } := by
        refine ⟨hx.device, hx.sent, fun hsome => ?_, ?_⟩
        · rw [show c1.loop.conn = none from h6.conn] at hsome
          cases hsome
        · obtain ⟨events, writes, hevents, hwrites, htold⟩ := h6.told.told
          exact ⟨events, writes, hevents, by rw [hx.writes, hwrites, List.append_nil], htold⟩
      exact told_connected _ _ _ _ h7 (h6.faithful.of_view rfl) h6.everConnected (hx.reads ▸ Nat.succ_pos _)
        (Or.inr ⟨x, rfl, fun n level hcall => hsets.driven hcall⟩)
    · have h8 := (h6.of hfailed.1).told
      rcases e with e | e | _ | _
      · dsimp only [caught, Stop.toError, post_ok]
        split
        · exact h8
        · exact h8
        · next heq => cases heq
      · exact h8
      · exact h8
      · exact h8

theorem told_tryConnect {reads : ℕ} (h : Opening past done ever reads c) :
    tryConnect.wp (fun _ => Told past done [] ever) c := by
  have hfailed : ∀ e, Steady (failed e >>= fun _ => scanLater : Watch (Wire ω) Unit) := fun e =>
    Steady.bind (Steady.failed e) fun _ => Steady.scanLater
  unfold tryConnect
  rw [wp_bind, wp_call, post_ok]
  have h1 : Opening past done ever reads { c with world := (World.devices c.world).2 } :=
    h.of ⟨h.told.device, h.told.sent, rfl, rfl, h.reads⟩
  generalize (World.devices c.world).2 = w at h1 ⊢
  split
  · exact h1.told
  · exact (hfailed _).wp h1.told
  · rw [loop_bind]
    dsimp only
    split
    · have hreset : Steady (setLoop WatchLoop.resetFailures : Watch (Wire ω) Unit) :=
        Steady.setLoop fun _ => id
      exact (Steady.bind hreset fun _ => Steady.scanLater).wp h1.told
    · next entry others _ =>
      split
      · exact h1.told
      · rw [setLoop_bind, wp_bind, wp_result]
        have h2 : Opening past done ever reads
            { c with world := w, loop := { c.loop with serial := some entry.serial } } :=
          ⟨h1.told.of_loop id, h1.faithful.of_view rfl, h1.conn, h1.everConnected, h1.reads⟩
        refine wp_mono (told_connect entry h2) fun r c3 h3 => ?_
        rcases r with (e | _ | _ | _) | _
        · exact (hfailed e).wp h3
        · exact h3
        · exact h3
        · exact h3
        · exact h3

/-! ### The whole loop -/

theorem told_attend (h : Told past done [] ever c) (hsound : Sound c) (hever : c.loop.everConnected = ever) :
    attend.wp (fun _ => Told past done [] ever) c := by
  unfold attend
  rw [instant_bind, loop_bind]
  have h1 : Told past done [] ever { c with world := (World.instant c.world).2 } := h.world _
  have hfaithful : Faithful { c with world := (World.instant c.world).2 } := hsound.faithful.of_view rfl
  split
  · next hscan =>
    have hconn : c.loop.conn = none := by
      have hsome : c.loop.scanAt.isSome = true := by
        obtain ⟨_, hat, -⟩ := (Option.any_eq_true _ _).mp hscan
        exact Option.isSome_iff_exists.mpr ⟨_, hat⟩
      rw [hsound.alarms.scan] at hsome
      simpa using hsome
    rw [setLoop_bind]
    exact told_tryConnect ⟨h1.of_loop id, hfaithful.of_view rfl, hconn, hever, rfl⟩
  split
  · rw [setLoop_bind]
    exact told_restoreTarget (h1.of_loop id) (hfaithful.of_view rfl)
  split
  · rw [setLoop_bind]
    split
    · exact h1.of_loop id
    · next conn hconn =>
      rw [setConn_bind]
      have hconn' : c.loop.conn = some conn := hconn
      exact told_snapshot rfl (h1.of_loop fun _ => by rw [hconn']; rfl) (hfaithful.of_view rfl)
  split
  · exact h1
  · next hread =>
    have hsome : c.loop.conn.isSome = true :=
      Option.isSome_iff_ne_none.mpr (by simpa using (not_or.mp hread).2)
    obtain ⟨conn, hconn⟩ := Option.isSome_iff_exists.mp hsome
    have hdevice :=
      (Steady.onDevice (Wire.Quiet.readRaw (some (readTimeout c.loop (World.instant c.world).1)))).wp h1
    rw [wp_bind, wp_result]
    have hconn1 : (Ctx.loop { c with world := (World.instant c.world).2 }).conn = some conn := hconn
    rw [wp_onDevice conn hconn1] at hdevice ⊢
    refine wp_mono hdevice fun r s h2 => ?_
    rcases r with (e | e | _ | _) | data
    · exact (Steady.lost e).wp h2
    · exact h2
    · exact h2
    · exact h2
    · rw [caught_ok, post_ok]
      split
      · next heq => cases heq
      · exact h2
      · rw [instant_bind]
        exact told_received _ _ rfl (h2.world _) (hfaithful.of_view rfl)

theorem told_iterate (h : Told past done [] ever c) (hsound : Sound c)
    (hever : c.loop.everConnected = ever) : iterate.wp (fun _ => Told past done [] ever) c := by
  unfold iterate
  rw [gets_bind]
  split
  · next request rest _ =>
    rw [update_bind]
    have h1 : Told past done [] ever { c with serving := rest } := ⟨h.device, h.sent, h.reads, h.told⟩
    exact wp_seq (told_serve request h1 (hsound.faithful.of_view rfl)) (fun _ _ h' => h') fun _ _ h' => h'
  · unfold deliver takeRequests
    rw [update_bind, gets_bind]
    split
    · exact ⟨h.device, h.sent, h.reads, h.told⟩
    · rw [update_bind, gets_bind]
      split
      · exact ⟨h.device, h.sent, h.reads, h.told⟩
      · refine wp_seq (told_attend ⟨h.device, h.sent, h.reads, h.told⟩ ?_ hever) (fun _ _ h' => h')
          fun _ _ h' => h'
        exact hsound.of_same ⟨rfl, rfl, rfl, rfl, rfl⟩ rfl

end Methods

/-! ### Every run -/

section Run
variable [World ω]

/-- The writes and the events that a step of a watcher adds. -/
def newWrites (x : Watcher (Wire ω) × Input) : List Write :=
  (x.1.step x.2).ctx.world.writes.drop x.1.ctx.world.writes.length

/-- The events of one step. -/
def newEvents (x : Watcher (Wire ω) × Input) : List Event :=
  ((x.1.step x.2).ctx.emitted.drop x.1.ctx.emitted.length).map Emitted.event

/-- What every step of a watcher keeps. -/
structure Running (w : Watcher (Wire ω)) : Prop where
  lives : w.Lives
  device : w.ctx.world.device.Inv
  sent : w.ctx.world.sent = none
  reads : w.ctx.loop.conn.isSome = true → 1 ≤ w.ctx.world.reads

/-- A step tells of what its own writes drove. -/
theorem told_step {w : Watcher (Wire ω)} (h : Running w) (input : Input) :
    Told w.ctx.emitted w.ctx.world.writes [] w.ctx.loop.everConnected (w.step input).ctx := by
  have hnow : Told w.ctx.emitted w.ctx.world.writes [] w.ctx.loop.everConnected w.ctx :=
    ⟨h.device, h.sent, h.reads, [], [], by simp, by simp, by simp⟩
  have hshared : ∀ shared, Told w.ctx.emitted w.ctx.world.writes [] w.ctx.loop.everConnected
      { w.ctx with shared } :=
    fun shared => ⟨hnow.device, hnow.sent, hnow.reads, hnow.told⟩
  have hcall : ∀ request, Told w.ctx.emitted w.ctx.world.writes [] w.ctx.loop.everConnected
      (w.ctx.call request) :=
    fun request => by
      unfold Ctx.call
      split
      · exact hnow
      · exact hshared _
  cases input with
  | turn =>
    by_cases halive : w.alive = true
    · have hfinish : ∀ {c' : Ctx (Wire ω)} (error : Option Error),
          Told w.ctx.emitted w.ctx.world.writes [] w.ctx.loop.everConnected c' →
          Told w.ctx.emitted w.ctx.world.writes [] w.ctx.loop.everConnected (c'.finish error) :=
            fun {c'} error h' => by
        have hdropped : c'.loop.dropConnection.conn.isSome = true → 1 ≤ c'.world.reads := fun hsome => by
          unfold WatchLoop.dropConnection at hsome
          split at hsome
          · cases hsome
          · exact h'.reads hsome
        cases error <;> exact ⟨h'.device, h'.sent, hdropped, h'.told⟩
      refine Watcher.turn_of_wp hnow ?_
      refine Prog.wp_mono (told_iterate hnow (h.lives.sound halive) rfl) fun r c' h' => ?_
      rcases r with (_ | _ | _ | _) | (_ | _)
      · exact h'
      · exact hfinish _ h'
      · exact h'
      · exact h'
      · exact hfinish _ h'
      · exact h'
    · rw [Watcher.step, Watcher.turn, if_neg halive]
      exact hnow
  | take => exact hshared _
  | setTargetPins config =>
    simp only [Watcher.step]
    split
    · exact hnow
    · exact hcall _
  | setOutputs levels => exact hcall _
  | close => exact hshared _

theorem running_step (w : Watcher (Wire ω)) (input : Input) (h : Running w) : Running (w.step input) :=
  have htold := told_step h input
  ⟨Watcher.lives_step w input h.lives, htold.device, htold.sent, htold.reads⟩

theorem running_start (o : WatchOptions) (world : ω) (info : Firmware.DeviceInfo) (startUs : U64)
    (script : List (List Move × U64)) :
    Running (Watcher.start o (Wire.start world info startUs script)) where
  lives := Watcher.lives_start o _
  device := Firmware.Engine.inv_init info startUs
  sent := rfl
  reads h := by cases h

/-- In every run of a watcher, whatever other programs do to the device between two of its accesses: of each
    pin that a successful write of it drives the application is told, where the entry that the watcher had
    read differs from the written one, and after a reconnection in any case. -/
theorem outputs_told (o : WatchOptions) (world : ω) (info : Firmware.DeviceInfo) (startUs : U64)
    (script : List (List Move × U64)) (inputs : List Input) :
    ∀ x ∈ Lib.steps Watcher.step (Watcher.start o (Wire.start world info startUs script)) inputs,
      ∀ write ∈ newWrites x, ∀ n level, .setOutput n level ∈ write.calls →
        write.Foreseen n ∨ write.Reconnects x.1.ctx.loop.everConnected →
          ∃ event ∈ newEvents x, event.Tells n := by
  intro x hx write hwrite n level hcall hmet
  have hrunning : Running x.1 :=
    Lib.steps_preserve running_step inputs (running_start o world info startUs script) x hx
  obtain ⟨events, writes, hevents, hwrites, htold⟩ := (told_step hrunning x.2).told
  rw [newWrites, hwrites, List.append_nil, List.drop_left] at hwrite
  obtain ⟨e, he, htells⟩ := htold write hwrite n level hcall hmet
  refine ⟨e.event, ?_, htells⟩
  rw [newEvents, hevents, List.drop_left]
  exact List.mem_map_of_mem he

end Run

/-! ### A write that another program overtakes -/

/-- A configuration with two outputs and the one that the watcher finds first, where the second pin is not an
    output yet; both start low. -/
def bothOutputs : PinConfig := fun n => if n.val = 3 ∨ n.val = 4 then ⟨.output, 0⟩ else .unused

def firstOutput : PinConfig := fun n => if n.val = 3 then ⟨.output, 0⟩ else .unused

/-- What the device does before the four accesses of `connect`: another program sets the first output before
    the watcher reads the configuration, and makes all pins unused before the watcher writes. -/
def overtakenScript : List (List Move × U64) :=
  [([], 0), ([.op (.setPinConfig (payloadOf firstOutput 7) 0)], 0),
    ([.op (.setPinConfig (payloadOf .unused 8) 0)], 0), ([], 0)]

/-- A watcher with a target, before its first iteration. -/
def overtaken : Watcher (Wire Host.Script) :=
  Watcher.start ⟨none, some bothOutputs, [], 1⟩
    (Wire.start ⟨[], [], [], []⟩ (Firmware.Device.sampleInfo 0x3FFFFFFF) 0 overtakenScript)

instance (x : Write) (n : Gpio) : Decidable (x.Foreseen n) := inferInstanceAs (Decidable (_ = false))

/-- The watcher tells of the pin whose entry it had read differed. -/
theorem outputs_told_sample : ∃ write ∈ newWrites (overtaken, .turn), .setOutput 4 false ∈ write.calls ∧
    ∃ event ∈ newEvents (overtaken, .turn), event.Tells 4 := by
  have hwrite : ∃ write ∈ newWrites (overtaken, .turn), .setOutput 4 false ∈ write.calls ∧
      write.Foreseen 4 := by
    decide +kernel
  obtain ⟨write, hwrite, hcall, hforeseen⟩ := hwrite
  have hstep : (overtaken, Input.turn) ∈ Lib.steps Watcher.step overtaken [.turn] :=
    List.mem_singleton_self _
  unfold overtaken at hwrite hstep ⊢
  exact ⟨write, hwrite, hcall, outputs_told _ _ _ _ _ _ _ hstep write hwrite 4 false hcall
    (Or.inl hforeseen)⟩

/-- The write drives the other pin too, and no event of the run names it. -/
theorem output_untold : ∃ write ∈ (overtaken.step .turn).ctx.world.writes, .setOutput 3 false ∈ write.calls ∧
    ∀ e ∈ (overtaken.step .turn).ctx.emitted, 3#8 ∉ e.event.resets := by
  decide +kernel

end Hidpin.System
