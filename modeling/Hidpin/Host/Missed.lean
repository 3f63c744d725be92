import Hidpin.Host.LifeCycle
import Mathlib.Algebra.GroupWithZero.Nat

/-! Counting missed reports from the gaps in seq. A `Logged` world keeps what the reads of the device
    answered; the count of the watch loop on one connection is the tally of these answers, whatever
    else happens in between. -/

namespace Hidpin.Host
open Lib

/-- What a read of the device answers. -/
abbrev Answer := Except OsError (List U8)

/-- A world that keeps the answers of the reads. -/
structure Logged (ω : Type) where
  world : ω
  reads : List Answer

namespace Logged
variable {ω α : Type}

/-- A world with an empty log. -/
def start (w : ω) : Logged ω := ⟨w, []⟩

/-- A call that is not a read. -/
def pass (f : ω → α × ω) (l : Logged ω) : α × Logged ω := ((f l.world).1, { l with world := (f l.world).2 })

instance [World ω] : World (Logged ω) where
  devices := pass World.devices
  openDevice entry := pass (World.openDevice entry)
  read timeout l :=
    let r := World.read timeout l.world
    (r.1, ⟨r.2, l.reads ++ [r.1]⟩)
  write report := pass (World.write report)
  getFeatureReport reportId := pass (World.getFeatureReport reportId)
  sendFeatureReport report := pass (World.sendFeatureReport report)
  getInputReport reportId := pass (World.getInputReport reportId)
  instant := pass World.instant
  systemTime := pass World.systemTime
  seed := pass World.seed

end Logged

/-- The seq of the last report, and how many reports were missed. -/
abbrev Tally := Option U16 × ℕ

namespace Tally

/-- Counts a report. -/
def add (t : Tally) (seq : U16) : Tally := (some seq, t.2 + Device.missedBetween t.1 seq)

/-- The status report in a buffer, if `received` finds one. -/
def reportIn (data : List U8) : Option StatusReport :=
  if data.length < reportLen ∨ byteAt data 0 ≠ reportIdStatus then none
  else (decodeStatus ((data.take reportLen).tail)).toOption

/-- Counts what a read of the device answered. -/
def hear (t : Tally) : Answer → Tally
  | .ok data => (reportIn data).elim t fun report => t.add report.seq
  | .error _ => t

/-- The same for `read_status`, which leaves the answers to status requests out. -/
def account (t : Tally) : Answer → Tally
  | .ok data =>
    if data.length = 0 ∨ byteAt data 0 ≠ reportIdStatus ∨ data.length < reportLen then t
    else match decodeStatus data.tail with
      | .ok report => if contains report.reason Reason.hostRequest then t else t.add report.seq
      | .error _ => t
  | .error _ => t

end Tally

/-- The count of a notification. -/
def Event.missed : Event → ℕ
  | .statusReceived _ missed _ => missed
  | _ => 0

/-- The reports that the events say were missed. -/
def missedOf (emitted : List Emitted) : ℕ := (emitted.map fun e => e.event.missed).sum

variable {ω : Type} {past : List Emitted} {reads : List Answer} {t : Tally}

/-- The context after some answers, of which `t` is the tally, since the notifications were `past`. -/
structure Counted (past : List Emitted) (reads : List Answer) (t : Tally) (c : Ctx (Logged ω)) : Prop where
  reads : c.world.reads = reads
  missed : ∃ new, c.emitted = past ++ new ∧ missedOf new = t.2
  last : ∀ conn, c.loop.conn = some conn → conn.lastSeq = t.1

/-- The last seq is the same, or the connection is gone. -/
def SameSeq (l l' : WatchLoop) : Prop :=
  l'.conn = none ∨ l'.conn.map Connection.lastSeq = l.conn.map Connection.lastSeq

namespace Counted
variable {c c' : Ctx (Logged ω)}

theorem of (h : Counted past reads t c) (hreads : c'.world.reads = c.world.reads)
    (hemitted : c'.emitted = c.emitted) (hseq : SameSeq c.loop c'.loop) : Counted past reads t c' where
  reads := hreads.trans h.reads
  missed := by rw [hemitted]; exact h.missed
  last conn hconn := by
    rcases hseq with hnone | hsame
    · rw [hnone] at hconn
      cases hconn
    · rw [hconn] at hsame
      obtain ⟨old, hold, heq⟩ := Option.map_eq_some_iff.mp hsame.symm
      rw [← heq]
      exact h.last old hold

theorem push (h : Counted past reads t c) (event : Event) :
    Counted past reads (t.1, t.2 + event.missed) (c.push event) where
  reads := h.reads
  missed := by
    obtain ⟨new, hnew, hmissed⟩ := h.missed
    refine ⟨new ++ [⟨event, c.loop.config⟩], by rw [Ctx.push, hnew, List.append_assoc], ?_⟩
    simp [missedOf, ← hmissed]
  last := h.last

theorem push_zero (h : Counted past reads t c) {event : Event} (he : event.missed = 0) :
    Counted past reads t (c.push event) := by
  have hpush := h.push event
  rwa [he, Nat.add_zero] at hpush

end Counted

/-- The program reads nothing. -/
def Device.Quiet {α : Type} (m : Device.Io (Logged ω) α) : Prop :=
  ∀ reads, Prog.Keeps (fun s => s.2.reads = reads) m

namespace Device.Quiet
variable [World ω]

/-- Only a read adds to the answers. -/
theorem unmoved (reads : List Answer) : Unmoved fun l : Logged ω => l.reads = reads where
  write _ _ h := h
  getFeatureReport _ _ h := h
  sendFeatureReport _ _ h := h
  getInputReport _ _ h := h

theorem readInfo : Quiet (Device.readInfo : Io (Logged ω) DeviceInfo) :=
  fun reads => (unmoved reads).readInfo

theorem getPinConfig : Quiet (Device.getPinConfig : Io (Logged ω) PinConfigReport) := fun reads =>
  (unmoved reads).getPinConfig

theorem setPinConfig (config : PinConfig) :
    Quiet (Device.setPinConfig config : Io (Logged ω) PinConfigReport) :=
  fun reads => (unmoved reads).setPinConfig config

theorem requestStatus : Quiet (Device.requestStatus : Io (Logged ω) StatusReport) := fun reads =>
  (unmoved reads).requestStatus

theorem setOutputs (levels : List (U8 × Bool)) : Quiet (Device.setOutputs levels : Io (Logged ω) Unit) :=
  fun reads => (unmoved reads).setOutputs levels

end Device.Quiet

/-! ### The counter of a device -/

section Counter
variable [World ω]

theorem exec_readRaw (timeout : Option ℕ) (device : Device) (l : Logged ω) :
    (Device.readRaw timeout).exec (device, l) = match (World.read timeout l.world).1 with
      | .ok data => (.ok data, device, (World.read timeout l).2)
      | .error e => (.error (.error (.os e)), device, (World.read timeout l).2) := by
  rw [Device.readRaw, Device.transport, Prog.exec_bind, Prog.exec_call]
  have hread : (World.read timeout l).1 = (World.read timeout l.world).1 := rfl
  rw [hread]
  cases (World.read timeout l.world).1 <;> rfl

/-- The calls of an application that follows the reports of a device. -/
inductive Device.Call where
  | readStatus (timeout : Option ℕ)
  | requestStatus

/-- One call of the library. -/
def Device.call (s : Device × Logged ω) : Device.Call → Device × Logged ω
  | .readStatus timeout => ((Device.readStatus timeout).exec s).2
  | .requestStatus => (Device.requestStatus.exec s).2

/-- What the device counted. -/
def Device.tally (d : Device) : Tally := (d.lastSeq, d.missed)

theorem readStatus_tally (timeout : Option ℕ) (d : Device) (l : Logged ω) :
    (Device.call (d, l) (.readStatus timeout)).2 = (World.read timeout l).2 ∧
    (Device.call (d, l) (.readStatus timeout)).1.tally = d.tally.account (World.read timeout l.world).1 := by
  have hexec := exec_readRaw timeout d l
  rw [Device.call, Device.readStatus, Prog.exec_bind, hexec]
  rcases (World.read timeout l.world).1 with e | data
  · exact ⟨rfl, rfl⟩
  dsimp only [Tally.account]
  by_cases hempty : data.length = 0
  · simp [hempty]
  by_cases hid : byteAt data 0 ≠ reportIdStatus
  · simp [hempty, hid]
  by_cases hshort : data.length < reportLen
  · simp [hempty, hid, hshort]
  rw [if_neg hempty, if_neg hid, if_neg hshort, if_neg (by simp [hempty, hid, hshort]), Prog.exec_bind]
  rcases decodeStatus data.tail with e | report
  · exact ⟨rfl, rfl⟩
  · dsimp only [Device.ofExcept, Prog.exec_pure]
    split
    · exact ⟨rfl, rfl⟩
    · exact ⟨rfl, rfl⟩

theorem requestStatus_tally (d : Device) (l : Logged ω) :
    (Device.call (d, l) .requestStatus).1 = d ∧ (Device.call (d, l) .requestStatus).2.reads = l.reads := by
  have hkeeps : Prog.Keeps (fun s : Device × Logged ω => s.1 = d ∧ s.2.reads = l.reads)
      Device.requestStatus := by
    refine Prog.Keeps.bind (Prog.Keeps.bind (Prog.Keeps.call fun _ h => h) fun r => ?_) fun buf => ?_
    · cases r with
      | ok _ => exact Prog.Keeps.pure _
      | error _ => exact Prog.Keeps.throw _
    · split
      · exact Prog.Keeps.throw _
      · cases decodeStatus buf.tail with
        | ok _ => exact Prog.Keeps.pure _
        | error _ => exact Prog.Keeps.throw _
  exact hkeeps (d, l) ⟨rfl, rfl⟩

/-- After any calls, the counter is the tally of the answers. -/
theorem calls_tally (calls : List Device.Call) (d : Device) (l : Logged ω) :
    ∃ new, (Lib.run Device.call (d, l) calls).2.reads = l.reads ++ new ∧
      (Lib.run Device.call (d, l) calls).1.tally = new.foldl Tally.account d.tally := by
  induction calls generalizing d l with
  | nil => exact ⟨[], by simp, rfl⟩
  | cons call calls ih =>
    rw [Lib.run_cons]
    obtain ⟨new, hreads, htally⟩ := ih (Device.call (d, l) call).1 (Device.call (d, l) call).2
    cases call with
    | readStatus timeout =>
      obtain ⟨hworld, hcount⟩ := readStatus_tally timeout d l
      refine ⟨(World.read timeout l.world).1 :: new, ?_, ?_⟩
      · rw [hreads, hworld]
        exact List.append_assoc _ _ _
      · rw [htally, hcount]
        rfl
    | requestStatus =>
      obtain ⟨hdevice, hsame⟩ := requestStatus_tally d l
      exact ⟨new, by rw [hreads, hsame], by rw [htally, hdevice]⟩

end Counter

namespace Watch
open Prog
variable {α : Type} {c : Ctx (Logged ω)}

/-- A method keeps the tally, whatever it is. -/
def Steady (m : Watch (Logged ω) α) : Prop := ∀ past reads t, Keeps (Counted past reads t) m

namespace Steady

theorem pure (a : α) : Steady (Pure.pure a : Watch (Logged ω) α) := fun _ _ _ => Keeps.pure _

theorem throw (e : Stop) : Steady (MonadExcept.throw e : Watch (Logged ω) α) := fun _ _ _ => Keeps.throw _

theorem bind {β : Type} {m : Watch (Logged ω) α} {f : α → Watch (Logged ω) β} (hm : Steady m)
    (hf : ∀ a, Steady (f a)) : Steady (m >>= f) := fun past reads t =>
  Keeps.bind (hm past reads t) fun a => hf a past reads t

theorem only {p : Prop} [Decidable p] {m : Watch (Logged ω) Unit} (hm : Steady m) : Steady (Prog.only p m) :=
  fun past reads t => Keeps.only fun _ => hm past reads t

theorem gets (f : Ctx (Logged ω) → α) : Steady (Prog.gets f : Watch (Logged ω) α) :=
  fun _ _ _ => Keeps.gets _

theorem loop : Steady (loop : Watch (Logged ω) WatchLoop) := gets _

theorem result {m : Watch (Logged ω) α} (hm : Steady m) : Steady (result m) := fun past reads t =>
  Keeps.catching (hm past reads t)

theorem setLoop {f : WatchLoop → WatchLoop} (hf : ∀ l, SameSeq l (f l)) :
    Steady (setLoop f : Watch (Logged ω) Unit) :=
  fun _ _ _ => Keeps.update fun c h => h.of rfl rfl (hf c.loop)

theorem update {f : Ctx (Logged ω) → Ctx (Logged ω)}
    (hf : ∀ c, (f c).world = c.world ∧ (f c).emitted = c.emitted ∧
    (f c).loop.conn = c.loop.conn) : Steady (Prog.update f : Watch (Logged ω) Unit) := fun _ _ _ =>
  Keeps.update fun c h => h.of (by rw [(hf c).1]) (hf c).2.1 (Or.inr (by rw [(hf c).2.2]))

theorem emit {event : Event} (he : event.missed = 0) : Steady (emit event : Watch (Logged ω) Unit) :=
  fun _ _ _ => Keeps.update fun _ h => h.push_zero he

theorem setConfig (config : PinConfig) : Steady (setConfig config : Watch (Logged ω) Unit) :=
  bind loop fun _ => bind (only (throw _)) fun _ => setLoop fun _ => Or.inr rfl

theorem call (f : ω → α × ω) : Steady (Prog.call fun c : Ctx (Logged ω) =>
    ((Logged.pass f c.world).1, { c with world := (Logged.pass f c.world).2 })) := fun _ _ _ =>
  Keeps.call fun _ h => h.of rfl rfl (Or.inr rfl)

theorem onDevice {m : Device.Io (Logged ω) α} (hm : Device.Quiet m) : Steady (onDevice m) := by
  intro past reads t c h
  rcases hconn : c.loop.conn with _ | conn
  · simpa [Watch.onDevice, Watch.connection, Watch.loop, exec_bind, hconn] using h
  · have hQ : (Watch.onDevice m).wp (fun _ => Counted past reads t) c := by
      rw [wp_onDevice conn hconn]
      refine h.of (hm c.world.reads (conn.device, c.world) rfl) rfl (Or.inr ?_)
      rw [hconn]
      rfl
    exact hQ

theorem useDevice (device : Device) {m : Device.Io (Logged ω) α} (hm : Device.Quiet m) :
    Steady (useDevice device m) := by
  intro past reads t c h
  have hreads := hm c.world.reads (device, c.world) rfl
  simp only [Prog.exec, Watch.useDevice, ExceptT.run, StateT.run] at hreads ⊢
  split
  · next heq => exact h.of (by rw [heq] at hreads; exact hreads) rfl (Or.inr rfl)
  · next heq => exact h.of (by rw [heq] at hreads; exact hreads) rfl (Or.inr rfl)

theorem ofExcept (r : Except Error α) : Steady (ofExcept r : Watch (Logged ω) α) :=
  fun _ _ _ => Calm.ofExcept r

theorem checkTarget (config : PinConfig) : Steady (checkTarget config : Watch (Logged ω) Unit) :=
  fun _ _ _ => Calm.checkTarget config

theorem failed (error : Error) : Steady (failed error : Watch (Logged ω) Unit) := by
  refine bind (setLoop fun l => ?_) fun _ => bind (setLoop fun _ => Or.inr rfl) fun _ =>
    bind loop fun _ => ?_
  · split <;> exact Or.inr rfl
  · split
    · exact emit rfl
    · exact pure _

variable [World ω]

theorem instant : Steady (instant : Watch (Logged ω) Instant) := call World.instant

theorem lost (error : Error) : Steady (lost error : Watch (Logged ω) Unit) := by
  refine bind loop fun l => ?_
  split
  · refine bind (setLoop fun l => ?_) fun _ => bind (emit rfl) fun _ => bind instant fun _ =>
      setLoop fun _ => Or.inr rfl
    unfold WatchLoop.dropConnection
    split
    · exact Or.inl rfl
    · exact Or.inr rfl
  · exact pure _

theorem wrote (found config : PinConfig) : Steady (wrote found config : Watch (Logged ω) Unit) := by
  refine bind (setConfig config) fun _ => bind (setLoop fun l => Or.inr ?_) fun _ => bind instant fun _ => ?_
  · simp [Function.comp_def]
  · exact bind (setLoop fun _ => Or.inr rfl) fun _ => only (emit rfl)

theorem restoreTarget : Steady (restoreTarget : Watch (Logged ω) Unit) := by
  refine bind loop fun l => ?_
  split
  · refine bind (setLoop fun _ => Or.inr rfl) fun _ => bind instant fun _ =>
      bind (setLoop fun _ => Or.inr rfl) fun _ => ?_
    refine bind (result (onDevice Device.Quiet.getPinConfig)) fun r => ?_
    split
    · exact lost _
    · refine bind (setConfig _) fun _ => ?_
      split
      · exact pure _
      · refine bind (result (onDevice (Device.Quiet.setPinConfig _))) fun r => ?_
        split
        · exact bind (setLoop fun _ => Or.inr rfl) fun _ => bind loop fun _ =>
            bind (emit rfl) fun _ => wrote _ _
        · exact throw _
        · exact bind instant fun _ => setLoop fun _ => Or.inr rfl
        · exact lost _
  · exact pure _

theorem configChanged : Steady (configChanged : Watch (Logged ω) Unit) := by
  refine bind (result (onDevice Device.Quiet.getPinConfig)) fun r => ?_
  split
  · exact lost _
  · refine bind loop fun _ => bind (setConfig _) fun _ => bind loop fun _ => ?_
    split
    · split
      · exact emit rfl
      · exact pure _
    · split
      · exact pure _
      · split
        · exact restoreTarget
        · refine bind instant fun _ => ?_
          dsimp only
          split
          · exact bind instant fun _ => setLoop fun _ => Or.inr rfl
          · exact restoreTarget

theorem setTarget (config : PinConfig) : Steady (setTarget config : Watch (Logged ω) Unit) := by
  refine bind (checkTarget config) fun _ => bind loop fun _ => bind (setLoop fun _ => Or.inr rfl) fun _ =>
    bind loop fun _ => ?_
  split
  · exact pure _
  · refine bind (setLoop fun _ => Or.inr rfl) fun _ => bind (onDevice Device.Quiet.getPinConfig) fun _ =>
      bind (setConfig _) fun _ => ?_
    split
    · exact pure _
    · refine bind (result (onDevice (Device.Quiet.setPinConfig _))) fun r => ?_
      split
      · exact wrote _ _
      · exact bind (setLoop fun _ => Or.inr rfl) fun _ => throw _
      · exact bind instant fun _ => bind (setLoop fun _ => Or.inr rfl) fun _ => throw _
      · exact throw _

theorem serve (request : Request) : Steady (serve request : Watch (Logged ω) Unit) := by
  refine bind (result ?_) fun _ => update fun _ => ⟨rfl, rfl, rfl⟩
  cases request with
  | setTargetPins config => exact setTarget config
  | setOutputs levels =>
    refine bind loop fun _ => ?_
    split
    · exact throw _
    · exact onDevice (Device.Quiet.setOutputs levels)

theorem absorb (report : StatusReport) : Steady (absorb report : Watch (Logged ω) Unit) :=
  fun past reads t => by
    have hI : Absorbs (Counted (ω := ω) past reads t) :=
      { known := fun _ h => h.of rfl rfl (Or.inr rfl)
        instant := fun h => h.of rfl rfl (Or.inr rfl)
        systemTime := fun h => h.of rfl rfl (Or.inr rfl)
        push := @fun c event he h => h.push_zero (by cases event <;> first | rfl | cases he)
        absorbed := fun _ h => h.of rfl rfl (Or.inr rfl) }
    exact hI.absorb report

theorem scanLater : Steady (scanLater : Watch (Logged ω) Unit) :=
  bind instant fun _ => setLoop fun _ => Or.inr rfl

omit [World ω] in
theorem wp {m : Watch (Logged ω) α} (hm : Steady m) (h : Counted past reads t c) :
    m.wp (fun _ => Counted past reads t) c := hm past reads t c h

end Steady

variable [World ω] {conn : Connection}

/-- A status report that was read adds what it says was missed, once. -/
theorem status_counted (report : StatusReport) (at' : Instant) (missed : ℕ) (hconn : c.loop.conn = some conn)
    (h : Counted past reads t c) :
    (status report at' missed).wp (fun _ => Counted past reads (t.1, t.2 + missed)) c := by
  have hseq : ∀ conn' : Connection, conn'.lastSeq = conn.lastSeq →
      (some conn').map Connection.lastSeq = c.loop.conn.map Connection.lastSeq := fun conn' h' => by
    rw [hconn, Option.map_some, Option.map_some, h']
  unfold status
  rw [loop_bind, connection_bind hconn, setConn_bind]
  refine wp_then (R := fun _ => Counted past reads t) ?_ fun _ c1 h1 => ?_
  · rw [wp_only]
    exact ⟨fun _ => h.of rfl rfl (Or.inr (hseq _ rfl)), fun _ => h.of rfl rfl (Or.inr (hseq _ rfl))⟩
  rw [emit_bind]
  refine Steady.wp ?_ (h1.push (.statusReceived report missed (c.loop.onOff report)))
  refine Steady.bind (Steady.only (Steady.emit rfl)) fun _ => Steady.bind (Steady.only Steady.configChanged)
    fun _ => ?_
  refine Steady.bind Steady.loop fun l => ?_
  split
  · exact Steady.pure _
  · split
    · exact Steady.pure _
    · exact Steady.absorb report

/-- The answer of a read adds to the tally what its report says. -/
theorem received_counted (data : List U8) (at' : Instant) (hconn : c.loop.conn = some conn)
    (h : Counted past reads t c) :
    (received data at').wp (fun _ => Counted past reads (t.hear (.ok data))) c := by
  have hlast : conn.lastSeq = t.1 := h.last conn hconn
  unfold received
  split
  · next hshort =>
    rw [Tally.hear, Tally.reportIn, if_pos hshort]
    exact h
  · next hlong =>
    rw [Tally.hear, Tally.reportIn, if_neg hlong]
    rcases hdecode : decodeStatus (data.take reportLen).tail with e | report
    · exact h
    · dsimp only [Except.toOption, Option.elim]
      rw [connection_bind hconn, setConn_bind, Tally.add, ← hlast]
      have h1 : Counted past reads (some report.seq, t.2) { c with loop := { c.loop with
          conn := some { conn with lastSeq := some report.seq } } } :=
        ⟨h.reads, h.missed, fun conn' hconn' => by cases hconn'; rfl⟩
      exact status_counted report at' _ rfl h1

omit [World ω] in
/-- The device of the connection after a program that reads nothing. -/
theorem withDevice_counted {m : Device.Io (Logged ω) α} (hm : Device.Quiet m)
    (hconn : c.loop.conn = some conn) (h : Counted past reads t c) :
    Counted past reads t (c.withDevice conn (m.exec (conn.device, c.world)).2) :=
  h.of (hm c.world.reads (conn.device, c.world) rfl) rfl (Or.inr (by rw [hconn]; rfl))

theorem snapshot_counted (hconn : c.loop.conn = some conn) (h : Counted past reads t c) :
    snapshot.wp (fun _ => Counted past reads t) c := by
  have h1 := withDevice_counted Device.Quiet.requestStatus hconn h
  unfold snapshot
  rw [wp_bind, wp_result, wp_onDevice conn hconn]
  rcases hexec : Prog.exec Device.requestStatus (conn.device, c.world) with ⟨(e | e | _ | _) | report, s⟩ <;>
    rw [hexec] at h1 <;> refine (wp_of_exec hexec _).mpr ?_
  · exact Steady.wp (Steady.lost e) h1
  · exact h1
  · exact h1
  · exact h1
  · rw [caught_ok, post_ok]
    refine (connection_bind rfl _).mpr ?_
    rw [setConn_bind, update_bind, instant_bind, wp_bind, wp_catching]
    refine wp_mono (@status_counted _ past reads t _ _ _ report _ 0 rfl ?_) fun r c' h' => ?_
    · exact h1.of rfl rfl (Or.inr rfl)
    · rcases r with (_ | _ | _ | _) | _ <;> exact h'

/-! ### Connecting -/

/-- A new connection has no last seq, and it starts with the tally of no report. -/
theorem connected_counted (entry : DeviceEntry) (info : DeviceInfo) (device : Device) (found : PinConfig)
    (driven : List U8) (awaitingConfig : Bool) (h : Counted past reads (none, t.2) c) :
    (connected entry info device found driven awaitingConfig).wp
      (fun _ => Counted past reads (none, t.2)) c := by
  unfold connected
  rw [setConn_bind, setLoop_bind, loop_bind, setLoop_bind]
  have h1 : Counted past reads (none, t.2) { c with loop := { c.loop.resetFailures with
      conn := some ⟨device, .empty, none, none, awaitingConfig⟩, everConnected := true } } :=
    ⟨h.reads, h.missed, fun conn' hconn' => by cases hconn'; rfl⟩
  refine setConfig_bind ?_ h1
  rw [emit_bind]
  have h2 : Counted past reads (none, t.2) { c with loop := WatchLoop.setConfig { c.loop.resetFailures with
      conn := some ⟨device, .empty, none, none, awaitingConfig⟩, everConnected := true } found } :=
    h1.of rfl rfl (Or.inr rfl)
  have h3 :=
    h2.push_zero (rfl : (Event.connected entry.serial entry.path info found c.loop.everConnected).missed = 0)
  refine wp_then (R := fun _ c' => Counted past reads (none, t.2) c' ∧ c'.loop.conn.isSome = true) ?_ ?_
  · split
    · exact (wp_emit _ _).mpr ⟨h3.push_zero rfl, rfl⟩
    · exact (wp_only _ _).mpr ⟨fun _ => (wp_emit _ _).mpr ⟨h3.push_zero rfl, rfl⟩, fun _ => ⟨h3, rfl⟩⟩
  · rintro _ c1 ⟨h4, hconn⟩
    obtain ⟨conn, hconn⟩ := Option.isSome_iff_exists.mp hconn
    split
    · rw [instant_bind, wp_setLoop]
      exact h4.of rfl rfl (Or.inr rfl)
    · exact snapshot_counted hconn h4

theorem connect_counted (entry : DeviceEntry) (h : Counted past reads (none, t.2) c) :
    (connect entry).wp (fun _ => Counted past reads (none, t.2)) c := by
  have hseq : ∀ {α β : Type} {m : Watch (Logged ω) α} {f : α → Watch (Logged ω) β} {c : Ctx (Logged ω)},
      Steady m →
      (∀ a c', Counted past reads (none, t.2) c' → (f a).wp (fun _ => Counted past reads (none, t.2)) c') →
      Counted past reads (none, t.2) c → (m >>= f).wp (fun _ => Counted past reads (none, t.2)) c :=
    fun hm hf h => wp_seq (hm.wp h) hf fun _ _ h' => h'
  unfold connect
  refine hseq (Steady.call (World.openDevice entry)) (fun r c1 h1 => ?_) h
  refine hseq (Steady.ofExcept r) (fun _ c2 h2 => ?_) h1
  refine hseq (Steady.call World.seed) (fun _ c3 h3 => ?_) h2
  refine hseq (Steady.useDevice _ Device.Quiet.readInfo) ?_ h3
  rintro ⟨info, device⟩ c4 h4
  refine hseq (Steady.setLoop fun _ => Or.inr rfl) (fun _ c5 h5 => ?_) h4
  refine hseq (Steady.useDevice device Device.Quiet.getPinConfig) ?_ h5
  rintro ⟨read, device⟩ c6 h6
  rw [loop_bind]
  split
  · exact connected_counted _ _ _ _ _ _ h6
  · next target _ =>
    split
    · exact connected_counted _ _ _ _ _ _ h6
    · refine hseq (Steady.result (Steady.useDevice device (Device.Quiet.setPinConfig target)))
        (fun r c7 h7 => ?_) h6
      split
      · exact h7
      · exact h7
      · exact connected_counted _ _ _ _ _ _ h7

theorem tryConnect_counted (h : Counted past reads (none, t.2) c) :
    tryConnect.wp (fun _ => Counted past reads (none, t.2)) c := by
  have hfailed : ∀ e, Steady (failed e >>= fun _ => scanLater : Watch (Logged ω) Unit) := fun e =>
    Steady.bind (Steady.failed e) fun _ => Steady.scanLater
  unfold tryConnect
  refine wp_seq ((Steady.call World.devices).wp h) (fun r c1 h1 => ?_) fun _ _ h' => h'
  split
  · exact h1
  · exact (hfailed _).wp h1
  · rw [loop_bind]
    dsimp only
    split
    · have hreset : Steady (setLoop WatchLoop.resetFailures : Watch (Logged ω) Unit) :=
        Steady.setLoop fun _ => Or.inr rfl
      exact (Steady.bind hreset fun _ => Steady.scanLater).wp h1
    · split
      · exact h1
      · rw [setLoop_bind, wp_bind, wp_result]
        refine wp_mono (connect_counted _ (h1.of rfl rfl (Or.inr rfl))) fun r c2 h2 => ?_
        rcases r with (e | _ | _ | _) | _
        · exact (hfailed e).wp h2
        · exact h2
        · exact h2
        · exact h2
        · exact h2

/-! ### The whole loop -/

/-- An iteration of a connected loop reads at most once, and nothing else counts. -/
theorem attend_counted (halarms : Alarms c.loop) (hnone : c.loop.conn = none → t.1 = none)
    (h : Counted past reads t c) :
    attend.wp (fun _ c' => ∃ new, Counted past (reads ++ new) (new.foldl Tally.hear t) c') c := by
  have hquiet : ∀ {c' : Ctx (Logged ω)}, Counted past reads t c' →
      ∃ new, Counted past (reads ++ new) (new.foldl Tally.hear t) c' := fun h' => ⟨[], by simpa using h'⟩
  unfold attend
  rw [instant_bind, loop_bind]
  have h1 : Counted past reads t { c with world := (World.instant c.world).2 } := h.of rfl rfl (Or.inr rfl)
  split
  · next hscan =>
    have hconn : c.loop.conn = none := by
      have hsome : c.loop.scanAt.isSome = true := by
        obtain ⟨_, hat, -⟩ := (Option.any_eq_true _ _).mp hscan
        exact Option.isSome_iff_exists.mpr ⟨_, hat⟩
      rw [halarms.scan] at hsome
      simpa using hsome
    obtain ⟨last, n⟩ := t
    obtain rfl : last = none := hnone hconn
    rw [setLoop_bind]
    exact wp_mono (tryConnect_counted (t := (none, n)) (h1.of rfl rfl (Or.inr rfl))) fun _ _ => hquiet
  split
  · rw [setLoop_bind]
    exact wp_mono (Steady.restoreTarget.wp (h1.of rfl rfl (Or.inr rfl))) fun _ _ => hquiet
  split
  · rw [setLoop_bind]
    split
    · exact hquiet (h1.of rfl rfl (Or.inr rfl))
    · next conn hconn =>
      rw [setConn_bind]
      refine wp_mono (snapshot_counted rfl (h1.of rfl rfl (Or.inr ?_))) fun _ _ => hquiet
      rw [show c.loop.conn = some conn from hconn]
      rfl
  split
  · exact hquiet h1
  · next hread =>
    have hsome : c.loop.conn.isSome = true :=
      Option.isSome_iff_ne_none.mpr (by simpa using (not_or.mp hread).2)
    obtain ⟨conn, hconn⟩ := Option.isSome_iff_exists.mp hsome
    rw [wp_bind, wp_result]
    generalize (World.instant c.world).2 = l at h1 ⊢
    generalize readTimeout _ _ = timeout
    have hconn1 : (Ctx.loop { c with world := l }).conn = some conn := hconn
    refine (wp_onDevice conn hconn1 _ _).mpr ?_
    have h2 : Counted past (reads ++ [(World.read (some timeout) l.world).1]) t
        (Ctx.withDevice { c with world := l } conn (conn.device, (World.read (some timeout) l).2)) := by
      refine ⟨?_, h1.missed, fun conn' hconn' => ?_⟩
      · rw [← h1.reads]
        rfl
      · cases hconn'
        exact h1.last conn hconn
    have hexec := exec_readRaw (some timeout) conn.device l
    rcases hanswer : (World.read (some timeout) l.world).1 with e | data <;> rw [hanswer] at hexec h2 <;>
      refine (wp_of_exec hexec _).mpr ?_
    · dsimp only [caught, Stop.toError, post_ok]
      exact wp_mono ((Steady.lost (.os e)).wp h2) fun _ _ h' => ⟨[.error e], h'⟩
    · dsimp only [caught_ok, post_ok]
      split
      · next heq => cases heq
      · next heq =>
        cases heq
        exact ⟨[.ok []], h2⟩
      · next data' _ heq =>
        cases heq
        rw [instant_bind]
        exact wp_mono (received_counted data _ rfl (h2.of rfl rfl (Or.inr rfl)))
          fun _ _ h' => ⟨[.ok data], h'⟩

theorem iterate_counted (halarms : Alarms c.loop) (hnone : c.loop.conn = none → t.1 = none)
    (h : Counted past reads t c) :
    iterate.wp (fun _ c' => ∃ new, Counted past (reads ++ new) (new.foldl Tally.hear t) c') c := by
  have hquiet : ∀ {c' : Ctx (Logged ω)}, Counted past reads t c' →
      ∃ new, Counted past (reads ++ new) (new.foldl Tally.hear t) c' := fun h' => ⟨[], by simpa using h'⟩
  unfold iterate
  rw [gets_bind]
  split
  · next request rest _ =>
    rw [update_bind]
    have h1 : Counted past reads t { c with serving := rest } := h.of rfl rfl (Or.inr rfl)
    exact wp_seq ((Steady.serve request).wp h1) (fun _ _ => hquiet) fun _ _ => hquiet
  · unfold deliver takeRequests
    rw [update_bind, gets_bind]
    have h1 : Counted past reads t { c with
        loop := { c.loop with pending := c.loop.pending.drop (outCapacity - c.shared.out.length) }
        shared := { c.shared with
          out := c.shared.out ++ c.loop.pending.take (outCapacity - c.shared.out.length) } } :=
      h.of rfl rfl (Or.inr rfl)
    split
    · exact hquiet h1
    · rw [update_bind, gets_bind]
      have h2 : Counted past reads t { c with
          loop := { c.loop with pending := c.loop.pending.drop (outCapacity - c.shared.out.length) }
          shared := { c.shared with
            out := c.shared.out ++ c.loop.pending.take (outCapacity - c.shared.out.length)
            requests := [] }
          serving := c.shared.requests } := h1.of rfl rfl (Or.inr rfl)
      split
      · exact hquiet h2
      · refine wp_seq (attend_counted ?_ hnone h2) (fun _ _ h' => h') fun _ _ h' => h'
        exact halarms.of_same ⟨rfl, rfl, rfl, rfl, rfl⟩

end Watch

namespace Watcher
variable [World ω]

theorem step_counted {w : Watcher (Logged ω)} (hlives : w.Lives)
    (hnone : w.ctx.loop.conn = none → t.1 = none) (h : Counted past reads t w.ctx) (input : Input) :
    ∃ new, Counted past (reads ++ new) (new.foldl Tally.hear t) (w.step input).ctx := by
  have hquiet : ∀ {c' : Ctx (Logged ω)}, Counted past reads t c' →
      ∃ new, Counted past (reads ++ new) (new.foldl Tally.hear t) c' := fun h' => ⟨[], by simpa using h'⟩
  have hshared : ∀ shared, Counted past reads t { w.ctx with shared } :=
    fun shared => h.of rfl rfl (Or.inr rfl)
  have hcall : ∀ request, Counted past reads t (w.ctx.call request) := fun request => by
    unfold Ctx.call
    split
    · exact h
    · exact hshared _
  cases input with
  | turn =>
    by_cases halive : w.alive = true
    · have hfinish : ∀ {c' : Ctx (Logged ω)} (error : Option Error),
          (∃ new, Counted past (reads ++ new) (new.foldl Tally.hear t) c') →
          ∃ new, Counted past (reads ++ new) (new.foldl Tally.hear t) (c'.finish error) := by
        rintro c' error ⟨new, h'⟩
        refine ⟨new, h'.of ?_ ?_ ?_⟩
        · cases error <;> rfl
        · cases error <;> rfl
        · cases error <;> simp only [Ctx.finish, WatchLoop.dropConnection, SameSeq] <;> split <;> simp
      refine turn_of_wp (P := fun c => ∃ new, Counted past (reads ++ new) (new.foldl Tally.hear t) c)
        (hquiet h) ?_
      refine Prog.wp_mono (Watch.iterate_counted (hlives.sound halive).alarms hnone h) fun r c' h' => ?_
      rcases r with (_ | _ | _ | _) | (_ | _)
      · exact h'
      · exact hfinish _ h'
      · exact h'
      · exact h'
      · exact hfinish _ h'
      · exact h'
    · rw [step, turn, if_neg halive]
      exact hquiet h
  | take => exact hquiet (hshared _)
  | setTargetPins config =>
    simp only [step]
    split
    · exact hquiet h
    · exact hquiet (hcall _)
  | setOutputs levels => exact hquiet (hcall _)
  | close => exact hquiet (hshared _)

/-- While a connection lasts, its count is the tally of the answers. -/
theorem run_counted : ∀ (inputs : List Input) {w : Watcher (Logged ω)} {reads : List Answer} {t : Tally},
    w.Lives →
    (∀ x ∈ Lib.steps step w inputs, x.1.ctx.loop.conn.isSome = true) → Counted past reads t w.ctx →
    ∃ new, Counted past (reads ++ new) (new.foldl Tally.hear t) (Lib.run step w inputs).ctx
  | [], _, _, _, _, _, h => ⟨[], by simpa using h⟩
  | input :: inputs, w, reads, t, hlives, hconn, h => by
    have hsome : w.ctx.loop.conn.isSome = true := hconn (w, input) (by simp [Lib.steps])
    obtain ⟨new, h1⟩ := step_counted hlives (fun hnone => by rw [hnone] at hsome; cases hsome) h input
    obtain ⟨more, h2⟩ := run_counted inputs (lives_step w input hlives)
      (fun x hx => hconn x (by simp [Lib.steps, hx])) h1
    refine ⟨new ++ more, ?_⟩
    rw [Lib.run_cons, ← List.append_assoc, List.foldl_append]
    exact h2

/-- The count of one connection, from the step that opens the device up to the one that loses it, is the
    tally of what was read. -/
theorem connection_counted (o : WatchOptions) (l : Logged ω) (before : List Input) (input : Input)
    (inputs : List Input) (hnone : (Lib.run step (start o l) before).ctx.loop.conn = none)
    (hconn : ∀ x ∈ Lib.steps step ((Lib.run step (start o l) before).step input) inputs,
      x.1.ctx.loop.conn.isSome = true) :
    let w := Lib.run step (start o l) before
    let w' := Lib.run step w (input :: inputs)
    ∃ new emitted,
      w'.ctx.world.reads = w.ctx.world.reads ++ new ∧ w'.ctx.emitted = w.ctx.emitted ++ emitted ∧
      missedOf emitted = (new.foldl Tally.hear (none, 0)).2 := by
  intro w w'
  have hlives : w.Lives := Lib.run_preserves lives_step before (lives_start o l)
  have h : Counted w.ctx.emitted w.ctx.world.reads (none, 0) w.ctx :=
    ⟨rfl, ⟨[], by simp, rfl⟩, fun conn h => by rw [show w.ctx.loop.conn = none from hnone] at h; cases h⟩
  obtain ⟨new, h1⟩ := step_counted hlives (fun _ => rfl) h input
  obtain ⟨more, h2⟩ := run_counted inputs (lives_step w input hlives) hconn h1
  obtain ⟨emitted, hemitted, hmissed⟩ := h2.missed
  refine ⟨new ++ more, emitted, ?_, hemitted, ?_⟩
  · rw [← List.append_assoc]
    exact h2.reads
  · rw [List.foldl_append]
    exact hmissed

end Watcher

end Hidpin.Host
