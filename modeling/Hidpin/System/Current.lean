import Hidpin.Host.LifeCycle
import Hidpin.System.Cable

/-! Which configuration the reports are about that a watcher uses, when it is the only program that writes
    the device. -/

namespace Hidpin.System
open Firmware (Gpio)
open Host hiding Gpio gpioCount Device
open Host.Device (Io)
open Host.Watch
open Lib Lib.Prog

variable {ω α : Type}

/-- Every pin that the latest report monitors has in this configuration the mode it had, when the report was
    assembled, in the published one. -/
def About (report : StatusReport) (config : PinConfig) (w : Cable ω) : Prop :=
  ∀ n : Gpio, Firmware.hasBit report.monitored n = true → w.shown.mode n = (config n).mode.toU8

/-- The watcher interpreted the report with a configuration that it is about. -/
def Current (a : Absorbed (Cable ω)) : Prop := About a.report a.before.config a.world

theorem About.of_fits {report : StatusReport} {config : PinConfig} {w : Cable ω}
    (hmonitored : report.monitored = Firmware.inputMask w.shown) (hfits : w.shown.Fits config.toFirmware) :
    About report config w := fun n hn => by
  rw [hmonitored, Firmware.hasBit_inputMask] at hn
  exact hfits n hn

theorem About.of {report : StatusReport} {config config' : PinConfig} {w w' : Cable ω}
    (h : About report config w) (hconfig : config.toFirmware = config'.toFirmware)
    (hshown : w'.shown = w.shown) : About report config' w' := fun n hn => by
  rw [hshown, h n hn]
  exact congrFun (congrArg Firmware.PinConfig.mode hconfig) n

/-- A context where nothing is under way on the device, whether or not it is connected. -/
structure Clear (c : Ctx (Cable ω)) : Prop where
  sane : c.world.Sane
  sent : c.world.sent = false
  absorbed : c.world.timely = true → ∀ a ∈ c.absorbed, Current a

/-- A context whose connection may read what `Linked` says. The latest report, if it may be used, is about
    the configuration of the watcher. -/
structure Tied (usable : Set StatusReport) (c : Ctx (Cable ω)) : Prop extends Clear c where
  linked : ∀ conn, c.loop.conn = some conn →
    c.world.Linked conn.isStale conn.awaitingConfig c.loop.config.toFirmware
  about : ∀ conn, c.loop.conn = some conn → c.world.timely = true → conn.awaitingConfig = false →
    ∀ report ∈ usable, About report c.loop.config c.world

variable {usable : Set StatusReport} {c c' : Ctx (Cable ω)} {conn : Connection}

namespace Clear

theorem inner (h : Clear c) (world : ω) : Clear { c with world := { c.world with world } } :=
  ⟨h.sane.of rfl rfl id, h.sent, h.absorbed⟩

/-- Without a connection there is nothing to know. -/
theorem tied (h : Clear c) (hconn : c.loop.conn = none) : Tied usable c where
  toClear := h
  linked conn hsome := by rw [hconn] at hsome; cases hsome
  about conn hsome := by rw [hconn] at hsome; cases hsome

end Clear

namespace Tied

theorem inner (h : Tied usable c) (world : ω) : Tied usable { c with world := { c.world with world } } where
  toClear := h.toClear.inner world
  linked conn hconn := (h.linked conn hconn).world world
  about := h.about

theorem keep (h : Tied usable c) {loop : WatchLoop} (hconn : loop.conn = c.loop.conn)
    (hconfig : loop.config = c.loop.config) : Tied usable { c with loop } where
  toClear := ⟨h.sane, h.sent, h.absorbed⟩
  linked conn hsome := by rw [hconfig]; exact h.linked conn (hconn.symm.trans hsome)
  about conn hsome := by rw [hconfig]; exact h.about conn (hconn.symm.trans hsome)

theorem push (h : Tied usable c) (event : Event) : Tied usable (c.push event) :=
  ⟨⟨h.sane, h.sent, h.absorbed⟩, h.linked, h.about⟩

/-- Without a report to use. -/
theorem empty (h : Tied usable c) : Tied ∅ c := ⟨h.toClear, h.linked, fun _ _ _ _ _ hreport => hreport.elim⟩

end Tied

/-! ### Methods that leave the device alone -/

section Methods
variable [World ω]

theorem tied_lost (error : Error) (h : Clear c) : (lost error).wp (fun _ => Tied usable) c := by
  unfold lost
  rw [loop_bind]
  rcases hconn : c.loop.conn with _ | conn
  · exact h.tied hconn
  · simp only [Option.isSome_some, if_true, setLoop_bind, emit_bind, instant_bind, wp_setLoop]
    refine Clear.tied ⟨h.sane.of rfl rfl id, h.sent, h.absorbed⟩ ?_
    simp [Ctx.push, WatchLoop.dropConnection, hconn]

/-- A report that may be used is recorded as such. -/
theorem tied_absorb {report : StatusReport} (hconn : c.loop.conn = some conn) (h : Tied usable c)
    (hreport : report ∈ usable) (hawaiting : conn.awaitingConfig = false) :
    (absorb report).wp (fun _ => Tied ∅) c := by
  have hI : Learns fun c' : Ctx (Cable ω) => Tied ∅ c' ∧ c'.world.timely = c.world.timely :=
    { known := fun _ h => ⟨h.1.keep rfl rfl, h.2⟩
      instant := fun h => ⟨h.1.inner _, h.2⟩
      systemTime := fun h => ⟨h.1.inner _, h.2⟩
      push := fun _ h => ⟨h.1.push _, h.2⟩ }
  refine hI.absorb report ⟨h.empty, rfl⟩ (fun _ _ h' => h'.1) fun c' events h' => ?_
  refine ⟨⟨h'.1.sane, h'.1.sent, fun ht a ha => ?_⟩, h'.1.linked, fun _ _ _ _ _ hempty => hempty.elim⟩
  rcases List.mem_append.mp ha with ha | ha
  · exact h'.1.absorbed ht a ha
  · rw [List.mem_singleton.mp ha]
    exact h.about conn hconn (h'.2 ▸ ht) hawaiting report hreport

/-! ### Methods that read and write the configuration -/

theorem tied_getPinConfig (hconn : c.loop.conn = some conn) (h : Tied usable c) (hfaithful : Faithful c) :
    (onDevice Host.Device.getPinConfig).wp (post
      (fun report c' => Tied usable { c' with loop := c'.loop.setConfig report.config } ∧
      c'.world.unseen = false ∧
        Faithful c' ∧ c'.loop.conn.isSome = true)
      fun _ c' => Tied usable c' ∧ Faithful c') c := by
  have htimely := (Cable.unmoved_timely c.world).getPinConfig
  rw [wp_onDevice conn hconn]
  refine htimely.wp_assume id (wp_mono (Cable.linked_getPinConfig (h.linked conn hconn)) ?_)
  rintro r ⟨d, w⟩ hr ht
  cases r with
  | ok report =>
    obtain ⟨hlinked, hshown, hunseen, hknown⟩ := hr
    refine ⟨⟨⟨hlinked.sane, hlinked.sent, fun ht' => h.absorbed (ht ht')⟩, ?_, ?_⟩, hunseen,
      hfaithful.of_view rfl, rfl⟩
    · rintro _ ⟨⟩
      exact hlinked
    · rintro _ ⟨⟩ ht' hawaiting used hused
      exact (h.about conn hconn (ht ht') hawaiting used hused).of (hknown ht' hawaiting) hshown
  | error e =>
    obtain ⟨hlinked, hshown⟩ := hr
    refine ⟨⟨⟨hlinked.sane, hlinked.sent, fun ht' => h.absorbed (ht ht')⟩, ?_, ?_⟩, hfaithful.of_view rfl⟩
    · rintro _ ⟨⟩
      exact hlinked
    · rintro _ ⟨⟩ ht' hawaiting used hused
      exact (h.about conn hconn (ht ht') hawaiting used hused).of rfl hshown

/-- A context after a Set that succeeded: the connection has to await the report that tells of it. -/
structure Written (config : PinConfig) (c : Ctx (Cable ω)) : Prop extends Clear c where
  linked : ∀ conn, c.loop.conn = some conn → c.world.Linked conn.isStale true config.toFirmware

theorem tied_setPinConfig (config : PinConfig) (hconn : c.loop.conn = some conn) (h : Tied usable c)
    (hfaithful : Faithful c) (hunseen : c.world.unseen = false) :
    (onDevice (Host.Device.setPinConfig config)).wp (post
      (fun _ c' => Written config c' ∧ Faithful c')
      fun _ c' => Tied usable c' ∧ Faithful c') c := by
  have htimely := (Cable.unmoved_timely c.world).setPinConfig config
  rw [wp_onDevice conn hconn]
  refine htimely.wp_assume id (wp_mono (Cable.linked_setPinConfig config (h.linked conn hconn) hunseen) ?_)
  rintro r ⟨d, w⟩ hr ht
  cases r with
  | ok report =>
    refine ⟨⟨⟨hr.1.sane, hr.1.sent, fun ht' => h.absorbed (ht ht')⟩, ?_⟩, hfaithful.of_view rfl⟩
    rintro _ ⟨⟩
    exact hr.1
  | error e =>
    obtain ⟨hlinked, hshown⟩ := hr
    refine ⟨⟨⟨hlinked.sane, hlinked.sent, fun ht' => h.absorbed (ht ht')⟩, ?_, ?_⟩, hfaithful.of_view rfl⟩
    · rintro _ ⟨⟩
      exact hlinked
    · rintro _ ⟨⟩ ht' hawaiting used hused
      exact (h.about conn hconn (ht ht') hawaiting used hused).of rfl hshown

/-- A report cannot be used before the one that tells of the Set. -/
theorem tied_wrote {found config : PinConfig} (h : Written config c) (hfaithful : Faithful c) :
    (wrote found config).wp (fun _ => Tied usable) c := by
  unfold wrote
  refine setConfig_sound hfaithful ?_
  rw [setLoop_bind, instant_bind, setLoop_bind, wp_only]
  have hwrote : Tied usable { c with
      world := (World.instant c.world).2
      loop := { c.loop.setConfig config with
        conn := (c.loop.setConfig config).conn.map fun conn => { conn with awaitingConfig := true }
        settleAt := some ((World.instant c.world).1 + settleTimeout) } } := by
    refine ⟨⟨h.sane.of rfl rfl id, h.sent, h.absorbed⟩, ?_, ?_⟩
    · intro conn' hconn'
      obtain ⟨conn, hconn, rfl⟩ := Option.map_eq_some_iff.mp hconn'
      exact (h.linked conn hconn).world _
    · intro conn' hconn' _ hawaiting
      obtain ⟨conn, -, rfl⟩ := Option.map_eq_some_iff.mp hconn'
      cases hawaiting
  exact ⟨fun _ => (wp_emit _ _).mpr (hwrote.push _), fun _ => hwrote⟩

theorem tied_restoreTarget (h : Tied usable c) (hfaithful : Faithful c) :
    restoreTarget.wp (fun _ => Tied usable) c := by
  unfold restoreTarget
  rw [loop_bind]
  split
  · next target conn htarget hconn =>
    rw [setLoop_bind, instant_bind, setLoop_bind, wp_bind, wp_result]
    have h1 : Tied usable { c with
        world := (World.instant c.world).2
        loop := { c.loop with restoreAt := none, lastRestore := some (World.instant c.world).1 } } :=
      (h.inner _).keep rfl rfl
    refine wp_mono (tied_getPinConfig hconn h1 (hfaithful.of_view rfl)) fun r c1 hr => ?_
    rcases r with (e | e | _ | _) | report
    · exact tied_lost e hr.1.toClear
    · exact hr.1
    · exact hr.1
    · exact hr.1
    · obtain ⟨h2, hunseen, hfaithful1, hsome⟩ := hr
      obtain ⟨conn1, hconn1⟩ := Option.isSome_iff_exists.mp hsome
      rw [caught_ok, post_ok]
      refine setConfig_sound hfaithful1 ?_
      have hfaithful2 := stable_faithful.setConfig report.config hfaithful1
      split
      · exact h2
      rw [wp_bind, wp_result]
      refine wp_mono (tied_setPinConfig target hconn1 h2 hfaithful2 hunseen) fun r c2 hr => ?_
      rcases r with (e | e | _ | _) | _
      · dsimp only [caught, Stop.toError, post_ok]
        split
        · next heq => cases heq
        · exact hr.1
        · rw [instant_bind]
          exact (hr.1.inner _).keep rfl rfl
        · exact tied_lost _ hr.1.toClear
      · exact hr.1
      · exact hr.1
      · exact hr.1
      · obtain ⟨h3, hfaithful3⟩ := hr
        rw [caught_ok, post_ok, setLoop_bind, loop_bind, emit_bind]
        refine tied_wrote ⟨⟨h3.sane, h3.sent, h3.absorbed⟩, h3.linked⟩ ?_
        have hcounted : Faithful { c2 with
            loop := { c2.loop with restoreCount := c2.loop.restoreCount + 1 } } :=
          hfaithful3.of_view rfl
        exact hcounted.push rfl
  · exact h

/-- Once nothing changes any more, the watcher reads the configuration that the report is about. -/
theorem tied_configChanged (hconn : c.loop.conn = some conn) (h : Clear c) (hfaithful : Faithful c)
    (hfresh : c.world.Fresh conn.isStale)
    (habout : c.world.timely = true → ∀ report ∈ usable, ∀ config : PinConfig,
      config.toFirmware = c.world.line.config → About report config c.world) :
    configChanged.wp (fun _ => Tied usable) c := by
  have htimely := (Cable.unmoved_timely c.world).getPinConfig
  unfold configChanged
  rw [wp_bind, wp_result, wp_onDevice conn hconn]
  refine htimely.wp_assume id (wp_mono (Cable.fresh_getPinConfig conn.awaitingConfig hfresh) ?_)
  rintro r ⟨d, w⟩ hr ht
  cases r with
  | error e =>
    obtain ⟨⟨e, rfl⟩, hsane, hsent⟩ := hr
    exact tied_lost e ⟨hsane, hsent, fun ht' => h.absorbed (ht ht')⟩
  | ok report =>
    obtain ⟨hlinked, hshown, hconfig⟩ := hr
    rw [caught_ok, post_ok, loop_bind]
    refine setConfig_sound (hfaithful.of_view rfl) ?_
    have h1 : Tied usable { c.withDevice conn (d, w) with
        loop := (c.withDevice conn (d, w)).loop.setConfig report.config } := by
      refine ⟨⟨hlinked.sane, hlinked.sent, fun ht' => h.absorbed (ht ht')⟩, ?_, ?_⟩
      · rintro _ ⟨⟩
        exact hlinked
      · rintro _ ⟨⟩ ht' - used hused
        exact (habout (ht ht') used hused report.config hconfig).of rfl hshown
    have hfaithful1 : Faithful
        { c.withDevice conn (d, w) with loop := (c.withDevice conn (d, w)).loop.setConfig report.config } :=
      stable_faithful.setConfig report.config (hfaithful.of_view rfl)
    rw [loop_bind]
    split
    · split
      · exact h1.push _
      · exact h1
    · split
      · exact h1
      split
      · exact tied_restoreTarget h1 hfaithful1
      · rw [instant_bind]
        dsimp only
        split
        · rw [instant_bind]
          exact ((h1.inner _).inner _).keep rfl rfl
        · exact tied_restoreTarget (h1.inner _) (hfaithful1.of_view rfl)

/-- A context with this connection, configuration and world, in which only notifications follow. -/
structure Noted (config : PinConfig) (world : Cable ω) (conn : Connection) (c : Ctx (Cable ω)) : Prop where
  clear : Clear c
  faithful : Faithful c
  conn : c.loop.conn = some conn
  config : c.loop.config = config
  world : c.world = world

theorem Noted.push {config : PinConfig} {world : Cable ω} (h : Noted config world conn c) {event : Event}
    (hon : event.onOff = []) : Noted config world conn (c.push event) :=
  ⟨⟨h.clear.sane, h.clear.sent, h.clear.absorbed⟩, h.faithful.push hon, h.conn, h.config, h.world⟩

/-- A report that arrived is used only if it fits. -/
theorem tied_status (report : StatusReport) (isStale tells : Bool) (at' : Instant) (missed : ℕ)
    (hconn : c.loop.conn = some conn) (h : Clear c) (hfaithful : Faithful c)
    (hstale : (!contains report.reason Host.Reason.hostRequest && conn.isStale report.seq) = isStale)
    (htells : contains report.reason Host.Reason.configChanged = tells)
    (harrived : ∀ conn' : Connection, conn'.snapshotSeq =
        (if (contains report.reason Host.Reason.hostRequest || isStale) = true then conn.snapshotSeq
          else none) →
      c.world.Arrived conn'.isStale conn.awaitingConfig c.loop.config.toFirmware isStale tells)
    (hmonitored : report.monitored = Firmware.inputMask c.world.shown) :
    (status report at' missed).wp (fun _ => Tied ∅) c := by
  unfold status
  rw [loop_bind, connection_bind hconn, setConn_bind, hstale, htells]
  generalize hconn1 : ({ conn with
    clock := conn.clock.add at' report.timestampUs
    snapshotSeq := if (contains report.reason Host.Reason.hostRequest || isStale) = true
      then conn.snapshotSeq else none
    awaitingConfig := conn.awaitingConfig && !(tells && !isStale) } : Connection) = conn1
  have hawaiting : conn1.awaitingConfig = (conn.awaitingConfig && !(tells && !isStale)) := by rw [← hconn1]
  have hseq : conn1.snapshotSeq =
      if (contains report.reason Host.Reason.hostRequest || isStale) = true then conn.snapshotSeq
        else none := by
    rw [← hconn1]
  refine wp_then (R := fun _ => Noted c.loop.config c.world conn1) ?_ fun _ c1 h1 => ?_
  · rw [wp_only]
    have hclear : ∀ loop, Clear { c with loop } := fun _ => ⟨h.sane, h.sent, h.absorbed⟩
    exact ⟨fun _ => ⟨hclear _, hfaithful.of_view rfl, rfl, rfl, rfl⟩,
      fun _ => ⟨hclear _, hfaithful.of_view rfl, rfl, rfl, rfl⟩⟩
  rw [emit_bind]
  have h2 : Noted c.loop.config c.world conn1
      (c1.push (.statusReceived report missed (c.loop.onOff report))) := h1.push rfl
  refine wp_then (R := fun _ => Noted c.loop.config c.world conn1) ?_ fun _ c2 h3 => ?_
  · rw [wp_only, wp_emit]
    exact ⟨fun _ => h2.push rfl, fun _ => h2⟩
  obtain ⟨hclear, hfaithful2, hconn2, hconfig, hworld⟩ := h3
  have harrived2 := harrived conn1 hseq
  rw [← hworld, ← hconfig] at harrived2
  have habout2 : ∀ config : PinConfig, c2.world.shown.Fits config.toFirmware →
      About report config c2.world := fun config =>
    About.of_fits (hworld ▸ hmonitored)
  refine wp_seq (R := fun _ => Tied {r | r = report ∧ isStale = false}) ?_ (fun _ c3 h3 => ?_)
    fun _ _ h' => h'.empty
  · rw [wp_only]
    constructor
    · rintro rfl
      have hfresh : c2.world.Fresh conn1.isStale :=
        ⟨hclear.sane, hclear.sent, fun ht => (harrived2.arrival ht).told.1⟩
      refine tied_configChanged hconn2 hclear hfaithful2 hfresh ?_
      rintro ht _ ⟨rfl, hisStale⟩ config hconfig'
      exact habout2 config (hconfig' ▸ (harrived2.arrival ht).told.2 hisStale)
    · intro hnot
      obtain rfl : tells = false := by simpa using hnot
      rw [Bool.false_and, Bool.not_false, Bool.and_true] at hawaiting
      refine ⟨hclear, ?_, ?_⟩
      · intro conn' hconn'
        obtain rfl : conn1 = conn' := Option.some.inj (hconn2.symm.trans hconn')
        exact ⟨hclear.sane, hclear.sent, harrived2.seen, fun ht =>
          hawaiting ▸ (harrived2.arrival ht).phase.1⟩
      · rintro conn' hconn' ht hnot' _ ⟨rfl, hisStale⟩
        obtain rfl : conn1 = conn' := Option.some.inj (hconn2.symm.trans hconn')
        exact habout2 _ ((harrived2.arrival ht).phase.2 hisStale (hawaiting ▸ hnot'))
  rw [loop_bind]
  split
  · exact h3.empty
  · next conn3 hconn3 =>
    split
    · exact h3.empty
    · next huse =>
      obtain ⟨⟨hisStale, hnot⟩, -⟩ : (isStale = false ∧ conn3.awaitingConfig = false) ∧ _ := by
        simpa using huse
      exact tied_absorb hconn3 h3 ⟨rfl, hisStale⟩ hnot

/-- A read that brings a report of the device itself. -/
theorem wp_received_own {r : Firmware.Sent} (at' : Instant) (hconn : c.loop.conn = some conn)
    (hown : Firmware.Device.OwnReport r.status) {Q : Except Stop Unit → Ctx (Cable ω) → Prop}
    (hstatus : (status (hostReport r.status) at'
      (Host.Device.missedBetween conn.lastSeq (hostReport r.status).seq)).wp Q { c with
        loop := { c.loop with conn := some { conn with lastSeq := some (hostReport r.status).seq } } }) :
    (received (reportIdStatus :: Firmware.encodeStatus r.status) at').wp Q c := by
  have hlength : (reportIdStatus :: Firmware.encodeStatus r.status).length = reportLen := by
    rw [List.length_cons, length_own hown]
    rfl
  have hshort : ¬ ((reportIdStatus :: Firmware.encodeStatus r.status).length < reportLen ∨
      byteAt (reportIdStatus :: Firmware.encodeStatus r.status) 0 ≠ reportIdStatus) :=
    not_or.mpr ⟨hlength.not_lt, not_not.mpr rfl⟩
  unfold received
  rw [if_neg hshort, List.take_of_length_le hlength.le, List.tail_cons, decode_own hown]
  dsimp only
  rwa [connection_bind hconn, setConn_bind]

/-- The oldest report that the watcher did not read yet. -/
theorem tied_received {r : Firmware.Sent} (at' : Instant) (hconn : c.loop.conn = some conn) (h : Clear c)
    (hfaithful : Faithful c) (hown : Firmware.Device.OwnReport r.status)
    (hmonitored : r.status.monitored = Firmware.inputMask c.world.shown)
    (harrived : ∀ stale, (conn.isStale r.status.seq = true → stale = conn.isStale) →
      c.world.Arrived stale conn.awaitingConfig c.loop.config.toFirmware (conn.isStale r.status.seq)
        r.tells) :
    (received (reportIdStatus :: Firmware.encodeStatus r.status) at').wp (fun _ => Tied ∅) c := by
  have htells : ∀ reason : U8, contains reason Host.Reason.configChanged =
      Firmware.hasFlag reason Firmware.reasonConfigChanged := by decide
  have hrequest := not_hostRequest hown
  refine wp_received_own at' hconn hown (tied_status (hostReport r.status) (conn.isStale r.status.seq)
    r.tells at' _ rfl ⟨h.sane, h.sent, h.absorbed⟩ (hfaithful.of_view rfl) ?_ (htells _)
    (fun conn' hseq => harrived _ fun hstale => ?_) hmonitored)
  · rw [hrequest]
    rfl
  · rw [hrequest, hstale] at hseq
    unfold Connection.isStale
    rw [hseq]
    rfl

/-- The answer to a status request is used when the watcher knows the configuration that it read last. -/
theorem tied_snapshot (hconn : c.loop.conn = some conn) (h : Clear c) (hfaithful : Faithful c)
    (hseen : c.world.timely = true → c.world.unseen = false →
      c.loop.config.toFirmware = c.world.line.config) :
    snapshot.wp (fun _ => Tied ∅) c := by
  have htimely := (Cable.unmoved_timely c.world).requestStatus
  unfold snapshot
  rw [wp_bind, wp_result, wp_onDevice conn hconn]
  refine htimely.wp_assume id (Cable.wp_requestStatus h.sane h.sent hseen (fun e w hsane hsent ht => ?_) ?_)
  · exact tied_lost e ⟨hsane, hsent, fun ht' => h.absorbed (ht ht')⟩
  intro report w hreason hmonitored harrived ht
  have hrequest : contains report.reason Host.Reason.hostRequest = true := by
    rw [hreason]
    decide
  have htells : contains report.reason Host.Reason.configChanged = false := by
    rw [hreason]
    decide
  rw [caught_ok, post_ok]
  refine (connection_bind rfl _).mpr ?_
  rw [setConn_bind, update_bind, instant_bind, wp_bind, wp_catching]
  have harrived1 := harrived { conn with
    snapshotSeq := if report.seq ≠ 0 ∧ report.moreEvents = false then some report.seq else none }
    rfl conn.awaitingConfig
  refine wp_mono (tied_status report false false _ 0 rfl ⟨harrived1.sane.of rfl rfl id, harrived1.sent,
    fun ht' => h.absorbed (ht ht')⟩ (hfaithful.of_view rfl) ?_ htells (fun conn' hseq => ?_) hmonitored)
    fun r c' h' => ?_
  · rw [hrequest]
    rfl
  · rw [hrequest] at hseq
    exact (harrived conn' hseq conn.awaitingConfig).world _
  · rcases r with (_ | _ | _ | _) | _ <;> exact h'

theorem tied_setTarget (config : PinConfig) (h : Tied ∅ c) (hfaithful : Faithful c) :
    (setTarget config).wp (fun _ => Tied ∅) c := by
  unfold setTarget
  refine wp_seq (R := fun _ c' => Tied ∅ c' ∧ Faithful c') ?_ (fun _ c1 h1 => ?_) fun _ _ h' => h'.1
  · exact ⟨Calm.checkTarget config c h, Calm.checkTarget config c hfaithful⟩
  rw [loop_bind, setLoop_bind, loop_bind]
  have h2 : Tied ∅ { c1 with loop := { c1.loop with target := some config } } := h1.1.keep rfl rfl
  split
  · exact h2
  next conn hconn =>
  rw [setLoop_bind]
  have h3 : Tied ∅ { c1 with loop := { c1.loop with target := some config, restoreAt := none } } :=
    h1.1.keep rfl rfl
  refine wp_seq (tied_getPinConfig hconn h3 (h1.2.of_view rfl)) ?_ fun _ _ h' => h'.1
  rintro report c2 ⟨h4, hunseen, hfaithful4, hsome⟩
  obtain ⟨conn4, hconn4⟩ := Option.isSome_iff_exists.mp hsome
  refine setConfig_sound hfaithful4 ?_
  have hfaithful5 := stable_faithful.setConfig report.config hfaithful4
  split
  · exact h4
  rw [wp_bind, wp_result]
  refine wp_mono (tied_setPinConfig config hconn4 h4 hfaithful5 hunseen) fun r c3 hr => ?_
  rcases r with (e | e | _ | _) | _
  · dsimp only [caught, Stop.toError, post_ok]
    split
    · next heq => cases heq
    · rw [setLoop_bind]
      exact hr.1.keep rfl rfl
    · rw [instant_bind, setLoop_bind]
      exact (hr.1.inner _).keep rfl rfl
    · exact hr.1
  · exact hr.1
  · exact hr.1
  · exact hr.1
  · exact tied_wrote hr.1 hr.2

theorem tied_setOutputs (levels : List (U8 × Bool)) (hconn : c.loop.conn = some conn) (h : Tied ∅ c) :
    (onDevice (Host.Device.setOutputs levels)).wp (fun _ => Tied ∅) c := by
  have htimely := (Cable.unmoved_timely c.world).setOutputs levels
  have hlinked := Cable.linked_setOutputs levels (conn.device, c.world) (h.linked conn hconn)
  rw [wp_onDevice conn hconn]
  refine htimely.wp_assume id fun ht => ?_
  refine ⟨⟨hlinked.sane, hlinked.sent, fun ht' => h.absorbed (ht ht')⟩, ?_,
    fun _ _ _ _ _ hempty => hempty.elim⟩
  rintro _ ⟨⟩
  exact hlinked

theorem tied_serve (request : Request) (h : Tied ∅ c) (hfaithful : Faithful c) :
    (serve request).wp (fun _ => Tied ∅) c := by
  have hreplied : ∀ {c1 : Ctx (Cable ω)} (reply : Except Error Unit), Tied ∅ c1 →
      Tied ∅ { c1 with replies := c1.replies ++ [(request, reply)] } := fun _ h1 =>
    ⟨⟨h1.sane, h1.sent, h1.absorbed⟩, h1.linked, h1.about⟩
  unfold serve
  rw [wp_bind, wp_result]
  refine wp_mono (Q := fun _ => Tied ∅) ?_ fun r c1 h1 => ?_
  · cases request with
    | setTargetPins config => exact tied_setTarget config h hfaithful
    | setOutputs levels =>
      refine (loop_bind _).mpr ?_
      split
      · exact h
      · next conn hconn => exact tied_setOutputs levels hconn h
  · rcases r with (e | e | _ | _) | _
    · exact hreplied _ h1
    · exact h1
    · exact h1
    · exact h1
    · exact hreplied _ h1

/-! ### Connecting -/

/-- A new connection knows no report to be stale. -/
theorem tied_connected (entry : DeviceEntry) (info : DeviceInfo) (device : Host.Device) (found : PinConfig)
    (driven : List U8) (awaitingConfig : Bool) (h : Clear c) (hfaithful : Faithful c)
    (hlinked : c.world.Linked (fun _ => false) true found.toFirmware) :
    (connected entry info device found driven awaitingConfig).wp (fun _ => Tied ∅) c := by
  unfold connected
  rw [setConn_bind, setLoop_bind, loop_bind, setLoop_bind]
  generalize hconn : (⟨device, .empty, none, none, awaitingConfig⟩ : Connection) = conn
  have hstale : conn.isStale = fun _ => false := by rw [← hconn]; rfl
  have hawaiting : conn.awaitingConfig = awaitingConfig := by rw [← hconn]
  generalize hloop : ({ c.loop.resetFailures with conn := some conn, everConnected := true } : WatchLoop) = l
  have hopened : Faithful { c with loop := l } := hfaithful.of_view (by rw [← hloop]; rfl)
  have hset : Noted found c.world conn { c with loop := l.setConfig found } :=
    ⟨⟨h.sane, h.sent, h.absorbed⟩, stable_faithful.setConfig found hopened, by rw [← hloop]; rfl, rfl, rfl⟩
  have hnoted : Noted found c.world conn (Ctx.push { c with loop := l.setConfig found }
      (.connected entry.serial entry.path info found c.loop.everConnected)) := hset.push rfl
  subst hloop
  refine setConfig_sound hopened ?_
  rw [emit_bind]
  refine wp_then (R := fun _ => Noted found c.world conn) ?_ fun _ c1 h1 => ?_
  · split
    · exact (wp_emit _ _).mpr (hnoted.push rfl)
    · exact (wp_only _ _).mpr ⟨fun _ => (wp_emit _ _).mpr (hnoted.push rfl), fun _ => hnoted⟩
  obtain ⟨hclear, hfaithful1, hconn1, hconfig, hworld⟩ := h1
  split
  · next hawait =>
    rw [instant_bind, wp_setLoop]
    refine ⟨⟨hclear.sane.of rfl rfl id, hclear.sent, hclear.absorbed⟩, ?_,
      fun _ _ _ _ _ hempty => hempty.elim⟩
    intro conn' hconn'
    obtain rfl : conn = conn' := Option.some.inj (hconn1.symm.trans hconn')
    rw [hstale, hawaiting, hawait, hconfig, hworld]
    exact hlinked.world _
  · refine tied_snapshot hconn1 hclear hfaithful1 ?_
    rw [hconfig, hworld]
    exact hlinked.seen

/-- A context in which a device is being opened, after this was read of its configuration. -/
structure Opened (known : Firmware.PinConfig) (c : Ctx (Cable ω)) : Prop where
  clear : Clear c
  faithful : Faithful c
  conn : c.loop.conn = none
  linked : c.world.Linked (fun _ => false) true known

namespace Opened
variable {known known' : Firmware.PinConfig}

theorem inner (h : Opened known c) (world : ω) : Opened known { c with world := { c.world with world } } :=
  ⟨h.clear.inner world, h.faithful.of_view rfl, h.conn, h.linked.world world⟩

theorem of {w : Cable ω} (h : Opened known c) (hlinked : w.Linked (fun _ => false) true known')
    (ht : w.timely = true → c.world.timely = true) : Opened known' { c with world := w } :=
  ⟨⟨hlinked.sane, hlinked.sent, fun ht' => h.clear.absorbed (ht ht')⟩, h.faithful.of_view rfl,
    h.conn, hlinked⟩

variable {d : Host.Device}

theorem readInfo (h : Opened known c) :
    (Host.Device.readInfo : Io (Cable ω) _).wp (fun _ s => Opened known { c with world := s.2 })
      (d, c.world) := by
  refine (Cable.unmoved_timely c.world).readInfo.wp_assume id fun ht => h.of ?_ ht
  exact (Cable.linked_readInfo c.world (d, c.world) ⟨h.linked, rfl, rfl⟩).1

theorem getPinConfig (h : Opened known c) : Host.Device.getPinConfig.wp (post
      (fun report s => Opened report.config.toFirmware { c with world := s.2 } ∧ s.2.unseen = false)
      fun _ s => Opened known { c with world := s.2 }) (d, c.world) := by
  refine (Cable.unmoved_timely c.world).getPinConfig.wp_assume id
    (wp_mono (Cable.linked_getPinConfig h.linked) ?_)
  intro r s hr ht
  cases r with
  | ok report => exact ⟨h.of hr.1 ht, hr.2.2.1⟩
  | error e => exact h.of hr.1 ht

theorem setPinConfig (config : PinConfig) (h : Opened known c) (hunseen : c.world.unseen = false) :
    (Host.Device.setPinConfig config).wp (post
      (fun _ s => Opened config.toFirmware { c with world := s.2 })
      fun _ s => Opened known { c with world := s.2 }) (d, c.world) := by
  refine ((Cable.unmoved_timely c.world).setPinConfig config).wp_assume id
    (wp_mono (Cable.linked_setPinConfig config h.linked hunseen) ?_)
  intro r s hr ht
  cases r with
  | ok report => exact h.of hr.1 ht
  | error e => exact h.of hr.1 ht

end Opened

theorem tied_connect (entry : DeviceEntry) (h : Clear c) (hfaithful : Faithful c)
    (hconn : c.loop.conn = none) : (connect entry).wp (fun _ => Tied ∅) c := by
  unfold connect
  rw [wp_bind, wp_call, post_ok]
  have hopened : Opened (c.world.opened.line.config)
      { c with world := (World.openDevice entry c.world).2 } := by
    have hlinked := (h.sane.opened fun _ => false).world (World.openDevice entry c.world.world).2
    exact ⟨⟨hlinked.sane, hlinked.sent, h.absorbed⟩, hfaithful.of_view rfl, hconn, hlinked⟩
  rcases (World.openDevice entry c.world).1 with e | _
  · exact hopened.clear.tied hopened.conn
  refine wp_then (R := fun _ => Opened c.world.opened.line.config) hopened fun _ c1 h1 => ?_
  rw [wp_bind, wp_call, post_ok, wp_bind]
  have h2 : Opened c.world.opened.line.config { c1 with world := (World.seed c1.world).2 } := h1.inner _
  refine wp_useDevice h2.readInfo (fun info d3 w3 h3 => ?_) fun e d3 w3 h3 => h3.clear.tied h3.conn
  rw [post_ok, setLoop_bind, wp_bind]
  have h4 : Opened c.world.opened.line.config
      { c1 with world := w3, loop := { c1.loop with info := some info } } :=
    ⟨⟨h3.clear.sane, h3.clear.sent, h3.clear.absorbed⟩, h3.faithful.of_view rfl, h3.conn, h3.linked⟩
  refine wp_useDevice h4.getPinConfig (fun report d5 w5 h5 => ?_) fun e d5 w5 h5 => h5.clear.tied h5.conn
  obtain ⟨h5, hunseen⟩ := h5
  rw [post_ok, loop_bind]
  have hfound : ∀ device driven,
      (connected entry info device report.config driven false).wp (fun _ => Tied ∅)
      { c1 with world := w5, loop := { c1.loop with info := some info } } := fun device driven =>
    tied_connected entry info device report.config driven false h5.clear h5.faithful h5.linked
  split
  · exact hfound _ _
  · next target _ =>
    split
    · exact hfound _ _
    rw [wp_bind, wp_result]
    refine wp_useDevice (h5.setPinConfig target hunseen) (fun _ d6 w6 h6 => ?_) fun e d6 w6 h6 => ?_
    · rw [caught_ok, post_ok]
      exact tied_connected _ _ _ target _ true h6.clear h6.faithful h6.linked
    · have h7 : Tied ∅ { c1 with world := w6, loop := { c1.loop with info := some info } } :=
        h6.clear.tied h6.conn
      rcases e with e | e | _ | _
      · dsimp only [caught, Stop.toError, post_ok]
        split
        · exact h7
        · exact h7
        · next heq => cases heq
      · exact h7
      · exact h7
      · exact h7

omit [World ω] in
theorem tied_failed (error : Error) : Keeps (Tied usable) (failed error : Watch (Cable ω) Unit) := by
  refine Keeps.bind (Keeps.update fun c h => ?_) fun _ =>
    Keeps.bind (Keeps.update fun c h => h.keep rfl rfl) fun _ => Keeps.bind (Keeps.gets _) fun _ => ?_
  · dsimp only
    split
    · exact h.keep rfl rfl
    · exact h
  · split
    · exact Keeps.update fun c h => h.push _
    · exact Keeps.pure _

theorem tied_scanLater : Keeps (Tied usable) (scanLater : Watch (Cable ω) Unit) :=
  Keeps.bind (Keeps.call fun _ h => h.inner _) fun _ => Keeps.update fun _ h => h.keep rfl rfl

theorem tied_tryConnect (h : Clear c) (hfaithful : Faithful c) (hconn : c.loop.conn = none) :
    tryConnect.wp (fun _ => Tied ∅) c := by
  have hfailed : ∀ e, Keeps (Tied ∅) (failed e >>= fun _ => scanLater : Watch (Cable ω) Unit) := fun e =>
    Keeps.bind (tied_failed e) fun _ => tied_scanLater
  unfold tryConnect
  rw [wp_bind, wp_call, post_ok]
  have h1 : Clear { c with world := (World.devices c.world).2 } := h.inner _
  have hfaithful1 : Faithful { c with world := (World.devices c.world).2 } := hfaithful.of_view rfl
  have hconn1 : (Ctx.loop { c with world := (World.devices c.world).2 }).conn = none := hconn
  split
  · exact h1.tied hconn1
  · exact hfailed _ _ (h1.tied hconn1)
  · rw [loop_bind]
    dsimp only
    split
    · rw [setLoop_bind]
      exact tied_scanLater _ ((h1.tied hconn1).keep rfl rfl)
    · next entry others _ =>
      split
      · exact h1.tied hconn1
      · rw [setLoop_bind, wp_bind, wp_result]
        have h2 : Clear { c with
            world := (World.devices c.world).2
            loop := { c.loop with serial := some entry.serial } } := ⟨h1.sane, h1.sent, h1.absorbed⟩
        refine wp_mono (tied_connect entry h2 (hfaithful1.of_view rfl) hconn) fun r c3 h3 => ?_
        rcases r with (e | _ | _ | _) | _
        · exact hfailed e c3 h3
        · exact h3
        · exact h3
        · exact h3
        · exact h3

/-! ### The whole loop -/

theorem tied_attend (h : Tied ∅ c) (hsound : Sound c) : attend.wp (fun _ => Tied ∅) c := by
  unfold attend
  rw [instant_bind, loop_bind]
  have h1 : Tied ∅ { c with world := (World.instant c.world).2 } := h.inner _
  have hfaithful : Faithful { c with world := (World.instant c.world).2 } := hsound.faithful.of_view rfl
  split
  · next hscan =>
    have hconn : c.loop.conn = none := by
      have hsome : c.loop.scanAt.isSome = true := by
        obtain ⟨_, hat, -⟩ := (Option.any_eq_true _ _).mp hscan
        exact Option.isSome_iff_exists.mpr ⟨_, hat⟩
      rw [hsound.alarms.scan] at hsome
      simpa using hsome
    rw [setLoop_bind]
    exact tied_tryConnect ⟨h1.sane, h1.sent, h1.absorbed⟩ (hfaithful.of_view rfl) hconn
  split
  · rw [setLoop_bind]
    exact tied_restoreTarget (h1.keep rfl rfl) (hfaithful.of_view rfl)
  split
  · rw [setLoop_bind]
    split
    · exact h1.keep rfl rfl
    · next conn hconn =>
      rw [setConn_bind]
      refine tied_snapshot rfl ⟨h1.sane, h1.sent, h1.absorbed⟩ (hfaithful.of_view rfl) ?_
      exact (h1.linked conn hconn).seen
  split
  · exact h1
  · next hread =>
    have hsome : c.loop.conn.isSome = true :=
      Option.isSome_iff_ne_none.mpr (by simpa using (not_or.mp hread).2)
    obtain ⟨conn, hconn⟩ := Option.isSome_iff_exists.mp hsome
    have hconn1 : (Ctx.loop { c with world := (World.instant c.world).2 }).conn = some conn := hconn
    rw [wp_bind, wp_result, wp_onDevice conn hconn1]
    refine (Cable.timely_readRaw _ _).wp_assume id (Cable.wp_readRaw _ (h1.linked conn hconn1) ?_ ?_ ?_)
    · intro e w hlinked ht
      exact tied_lost e ⟨hlinked.sane, hlinked.sent, fun ht' => h1.absorbed (ht ht')⟩
    · intro w hlinked ht
      refine ⟨⟨hlinked.sane, hlinked.sent, fun ht' => h1.absorbed (ht ht')⟩, ?_,
        fun _ _ _ _ _ hempty => hempty.elim⟩
      rintro _ ⟨⟩
      exact hlinked
    · intro r w hown hmonitored hshown harrived ht
      rw [caught_ok, post_ok, instant_bind]
      have hsane := (harrived conn.isStale fun _ => rfl).sane
      refine tied_received _ rfl ⟨hsane.of rfl rfl id, (harrived conn.isStale fun _ => rfl).sent,
        fun ht' => h1.absorbed (ht ht')⟩
        (hfaithful.of_view rfl) hown (hmonitored.trans (congrArg _ hshown.symm)) fun stale hstale =>
          (harrived stale hstale).world _

theorem tied_iterate (h : Tied ∅ c) (hsound : Sound c) : iterate.wp (fun _ => Tied ∅) c := by
  unfold iterate
  rw [gets_bind]
  split
  · next request rest _ =>
    rw [update_bind]
    have h1 : Tied ∅ { c with serving := rest } := ⟨⟨h.sane, h.sent, h.absorbed⟩, h.linked, h.about⟩
    exact wp_seq (tied_serve request h1 (hsound.faithful.of_view rfl)) (fun _ _ h' => h') fun _ _ h' => h'
  · unfold deliver takeRequests
    rw [update_bind, gets_bind]
    split
    · exact ⟨⟨h.sane, h.sent, h.absorbed⟩, h.linked, h.about⟩
    · rw [update_bind, gets_bind]
      split
      · exact ⟨⟨h.sane, h.sent, h.absorbed⟩, h.linked, h.about⟩
      · refine wp_seq (tied_attend ⟨⟨h.sane, h.sent, h.absorbed⟩, h.linked, h.about⟩ ?_) (fun _ _ h' => h')
          fun _ _ h' => h'
        exact hsound.of_same ⟨rfl, rfl, rfl, rfl, rfl⟩ rfl

end Methods

/-! ### Every run -/

section Run
variable [World ω]

/-- What every step of a watcher keeps. -/
structure Current.Running (w : Watcher (Cable ω)) : Prop where
  lives : w.Lives
  tied : Tied ∅ w.ctx

theorem Current.running_step (w : Watcher (Cable ω)) (input : Input) (h : Current.Running w) :
    Current.Running (w.step input) := by
  have hshared : ∀ shared, Tied ∅ { w.ctx with shared } := fun shared =>
    ⟨⟨h.tied.sane, h.tied.sent, h.tied.absorbed⟩, h.tied.linked, h.tied.about⟩
  have hcall : ∀ request, Tied ∅ (w.ctx.call request) := fun request => by
    unfold Ctx.call
    split
    · exact h.tied
    · exact hshared _
  refine ⟨Watcher.lives_step w input h.lives, ?_⟩
  cases input with
  | turn =>
    by_cases halive : w.alive = true
    · have hfinish : ∀ {c : Ctx (Cable ω)} (error : Option Error), Tied ∅ c → Tied ∅ (c.finish error) := by
        intro c error h'
        have hdropped : ∀ shared,
            Tied ∅ { c with loop := { c.loop.dropConnection with pending := [] }, shared } := by
          intro shared
          unfold WatchLoop.dropConnection
          split
          · exact Clear.tied ⟨h'.sane, h'.sent, h'.absorbed⟩ rfl
          · exact ⟨⟨h'.sane, h'.sent, h'.absorbed⟩, h'.linked, h'.about⟩
        cases error <;> exact hdropped _
      refine Watcher.turn_of_wp h.tied ?_
      refine Prog.wp_mono (tied_iterate h.tied (h.lives.sound halive)) fun r c' h' => ?_
      rcases r with (_ | _ | _ | _) | (_ | _)
      · exact h'
      · exact hfinish _ h'
      · exact h'
      · exact h'
      · exact hfinish _ h'
      · exact h'
    · rw [Watcher.step, Watcher.turn, if_neg halive]
      exact h.tied
  | take => exact hshared _
  | setTargetPins config =>
    simp only [Watcher.step]
    split
    · exact h.tied
    · exact hcall _
  | setOutputs levels => exact hcall _
  | close => exact hshared _

theorem Current.running_start (o : WatchOptions) (world : ω) (info : Firmware.DeviceInfo) (startUs : U64)
    (script : List Pause) : Current.Running (Watcher.start o (Cable.start world info startUs script)) where
  lives := Watcher.lives_start o _
  tied := by
    refine Clear.tied ⟨⟨Firmware.Device.consistent_start info startUs, Nat.zero_le _, fun _ hchanging => ?_⟩,
      rfl, ?_⟩ rfl
    · have hchanging : ((Firmware.Device.start info startUs).line 0).changing = true := hchanging
      rw [Firmware.Device.changing_start] at hchanging
      cases hchanging
    · intro _ a ha
      cases ha

/-- In every run of a watcher that alone writes the device, whatever else the device does between two
    accesses and whichever of them fail: when no access came at a bad moment, every report that the watcher
    uses is about the configuration it interprets it with. -/
theorem used_current (o : WatchOptions) (world : ω) (info : Firmware.DeviceInfo) (startUs : U64)
    (script : List Pause) (inputs : List Input)
    (htimely : (Lib.run Watcher.step
      (Watcher.start o (Cable.start world info startUs script)) inputs).ctx.world.timely = true) :
    ∀ a ∈ (Lib.run Watcher.step
      (Watcher.start o (Cable.start world info startUs script)) inputs).ctx.absorbed, Current a :=
  (Lib.run_preserves Current.running_step
    inputs (Current.running_start o world info startUs script)).tied.absorbed htimely

end Run

/-! ### A report between two writes -/

instance (a : Absorbed (Cable ω)) : Decidable (Current a) := inferInstanceAs (Decidable (∀ _ : Gpio, _))

/-- A configuration with one input. -/
def onePull (mode : PinMode) : PinConfig := fun n => if n.val = 3 then ⟨mode, 0⟩ else .unused

def quietPause (nowUs : U64) : Pause := ⟨none, [], nowUs, false⟩

/-- The device settles and hands over a report. -/
def settledPause (nowUs : U64) : Pause :=
  ⟨none, [⟨.task nowUs 0, nofun⟩, ⟨.send nowUs true, nofun⟩], nowUs, false⟩

/-- A watcher with a target, before its first iteration, in which it opens the device, reads its information
    and its configuration, writes the target and reads it back. The device settles before the next access. -/
def pulledWatcher : Watcher (Cable Host.Script) :=
  Watcher.start ⟨none, some (onePull .pullUp), [], 1⟩
    (Cable.start ⟨[], [], [], [.ok [1], .ok [1]]⟩ (Firmware.Device.sampleInfo 0x3FFFFFFF) 0
      (List.replicate 5 (quietPause 0) ++ settledPause 100000 :: List.replicate 4 (quietPause 200000) ++
        [settledPause 300000]))

/-- The watcher reads that the target is in force before the application replaces it, and again after. -/
def patientRun : List Input := [.turn, .turn, .setTargetPins (onePull .pullDown), .turn, .turn, .turn]

/-- The application replaces the target before the watcher reads that it is in force. -/
def hastyRun : List Input := [.turn, .setTargetPins (onePull .pullDown), .turn, .turn, .turn]

theorem used_current_sample : ∃ a ∈ (Lib.run Watcher.step pulledWatcher patientRun).ctx.absorbed,
    a.report.monitored = 8 ∧ a.before.config = onePull .pullDown ∧ Current a := by
  have htimely : (Lib.run Watcher.step pulledWatcher patientRun).ctx.world.timely = true := by decide +kernel
  have hused : ∃ a ∈ (Lib.run Watcher.step pulledWatcher patientRun).ctx.absorbed,
      a.report.monitored = 8 ∧ a.before.config = onePull .pullDown := by decide +kernel
  obtain ⟨a, ha, hmonitored, hconfig⟩ := hused
  unfold pulledWatcher at htimely ha ⊢
  exact ⟨a, ha, hmonitored, hconfig, used_current _ _ _ _ _ _ htimely a ha⟩

/-- The report that tells of the first write ends the wait for the second one: it was assembled with the pin
    pulled up, and is interpreted with the configuration that pulls it down. -/
theorem stale_used : ∃ a ∈ (Lib.run Watcher.step pulledWatcher hastyRun).ctx.absorbed,
    a.report.monitored = 8 ∧ a.world.shown = (onePull .pullUp).toFirmware ∧
    a.before.config = onePull .pullDown ∧ ¬ Current a := by
  decide +kernel

end Hidpin.System
