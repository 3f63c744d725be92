import Hidpin.Host.Posted
import Hidpin.System.Attached

/-! A watcher without a target that knows no pin opens a device. It takes the answer to its first status
    request as its reference, or else the first report that it reads, and from then on it tells each change
    once, if it can tell what the reference shows already. -/

namespace Hidpin.System
open Firmware (Status hasBit)
open Firmware.Device (Since noStatus)
open Host hiding Gpio gpioCount Device
open Host.Watch
open Lib Lib.Prog

variable {ω : Type} {k m : ℕ} {ref : Status} {config : Firmware.PinConfig} {base : List OnOffChange}

/-! ### The reference -/

/-- When the device answers, the watcher can tell what the answer shows already: either events are queued,
    and when the device was opened the queue went on from the levels reported last. Or none is queued, and
    the reports that wait are stale, or they carry no event and monitor what the answer does. -/
def Apart (opened : Firmware.Device) (w : Cable ω) : Prop :=
  if w.device.engine.queue.count = 0 then
    (w.device.engine.hasSent = true ∧ w.device.engine.lastSeq ≠ 0 ∧ w.line.unread.length ≤ 0x8001) ∨
      ∀ r ∈ w.line.unread, r.status.events = [] ∧ r.status.monitored = w.device.engine.monitored
  else opened.Continuing

theorem Cable.marked_opened {w : Cable ω} (h : k ≤ w.next) : w.Marked k k ref none where
  reference s hs := by cases hs
  before _ := Or.inr fun i r hi hik => absurd (h.trans hi) hik.not_ge

/-- The mark that an answer sets. -/
theorem Cable.marked_answered {coherent : Prop} {w : Cable ω}
    (h : Since coherent k k noStatus config w.device) (hnext : w.next = k)
    (hempty : w.device.engine.queue.toList = []) (nowUs : U64)
    (hapart : (w.device.engine.hasSent = true ∧ w.device.engine.lastSeq ≠ 0 ∧
        w.line.unread.length ≤ 0x8001) ∨
      ∀ r ∈ w.line.unread, r.status.events = [] ∧ r.status.monitored = w.device.engine.monitored) :
    w.Marked k w.device.sent.length (w.device.engine.getStatus nowUs)
      (if (w.device.engine.getStatus nowUs).seq ≠ 0 then some (w.device.engine.getStatus nowUs).seq
        else none) := by
  have hanswered : (w.device.engine.getStatus nowUs).seq = BitVec.ofNat 16 (w.device.sent.length - 1) :=
    h.consistent.answered
  have hunread : w.line.unread = w.device.sent.drop k := by rw [← hnext]; rfl
  rw [hunread] at hapart
  refine ⟨fun s hs => ?_, fun hl => ?_⟩
  · split at hs
    · next hne =>
      obtain rfl := Option.some.inj hs
      refine ⟨hanswered, ?_, hnext.trans_le h.le_length⟩
      by_contra hnot
      rw [hanswered, Nat.lt_one_iff.mp (not_le.mp hnot)] at hne
      exact hne rfl
    · cases hs
  · rcases hapart with ⟨hsent, hne, hlength⟩ | hnone
    · have hseq : (w.device.engine.getStatus nowUs).seq = w.device.engine.lastSeq := if_pos hsent
      rw [List.length_drop] at hlength
      rw [if_pos (hseq ▸ hne), hanswered]
      exact Or.inl ⟨rfl, by omega⟩
    · refine Or.inr fun i r hi him hr => ?_
      have hmem : r ∈ w.device.sent.drop k := by
        refine List.mem_of_getElem? (i := i - k) ?_
        rw [List.getElem?_drop, Nat.add_sub_cancel' (hnext ▸ hi), hr]
      exact ⟨(hnone r hmem).1, (hnone r hmem).2, fun n hn =>
        h.repeated hl hempty nowUs hnone hmem hn⟩

theorem covers_noStatus (gpio : U8) : (hostReport noStatus).covers gpio = false := by
  have hnone : ∀ gpio, maskBit (hostReport noStatus).monitored gpio = false := fun gpio => by
    rw [hostReport, noStatus, maskBit]
    simp
  rw [StatusReport.covers, StatusReport.isMonitored, hnone]
  exact Bool.and_false _

theorem knows_noStatus {c : Ctx (Cable ω)} (h : ∀ gpio, c.loop.known gpio = none) :
    Knows (hostReport noStatus) c := fun gpio => by
  rw [h, covers_noStatus]
  rfl

theorem goesOn_noStatus (r : StatusReport) : (hostReport noStatus).GoesOn r := fun gpio hcovers => by
  rw [covers_noStatus] at hcovers
  cases hcovers

theorem news_noStatus (l : WatchLoop) (r : StatusReport) : l.news (hostReport noStatus) r = [] := by
  rw [WatchLoop.news, List.filter_eq_nil_iff.mpr fun event _ => by rw [covers_noStatus]; decide]
  rfl

/-- Reports without a reference tell what comes after the first of them. -/
theorem story_noStatus (l : WatchLoop) : ∀ reports, l.story (hostReport noStatus) reports = l.storyOf reports
  | [] => rfl
  | r :: reports => by
    rw [WatchLoop.story, news_noStatus]
    rfl

/-! ### Opening the device -/

/-- A connection of a watcher without a target that knows nothing yet. -/
structure Started (opened : Firmware.Device) (seq : Option U16) (b c : Ctx (Cable ω)) : Prop where
  target : c.loop.target = none
  configured : c.loop.config.toFirmware = opened.engine.config
  known : ∀ gpio, c.loop.known gpio = none
  since : Since opened.Continuing opened.sent.length opened.sent.length noStatus opened.engine.config
    c.world.device
  next : c.world.next = opened.sent.length
  faithful : Faithful c
  conn : ∃ conn, c.loop.conn = some conn ∧ conn.awaitingConfig = false ∧ conn.snapshotSeq = seq
  told : changes c.emitted = changes b.emitted

/-- What the watcher takes as its reference: nothing while events are queued, or else the answer. -/
def reference (w : Cable ω) (answer : Status) : Status :=
  if w.device.engine.queue.count = 0 then answer else noStatus

/-- The number of the first report after the reference. -/
def mark (k : ℕ) (w : Cable ω) : ℕ :=
  if w.device.engine.queue.count = 0 then w.device.sent.length else k

/-- The watcher asked the device that it opened, and follows it from the answer if it can tell what that
    shows. -/
def Begun (opened : Firmware.Device) (b c : Ctx (Cable ω)) : Prop :=
  c.loop.conn.isSome = true → ∃ asked answer,
    c.asked = b.asked ++ [asked] ∧ asked.report = hostReport answer ∧
    (Apart opened asked.world → Attached opened.sent.length (mark opened.sent.length asked.world)
      (reference asked.world answer) opened.engine.config (changes b.emitted) c)

/-- A device that is being opened by a watcher without a target that knows no pin. -/
structure Entering (opened : Firmware.Device) (b c : Ctx (Cable ω)) : Prop where
  conn : c.loop.conn = none
  target : c.loop.target = none
  known : ∀ gpio, c.loop.known gpio = none
  since : Since opened.Continuing opened.sent.length
    opened.sent.length noStatus opened.engine.config c.world.device
  next : c.world.next = opened.sent.length
  faithful : Faithful c
  told : changes c.emitted = changes b.emitted
  asked : c.asked = b.asked

/-- A device that was opened, possibly after a restart. -/
theorem Cable.orderly_opened {w : Cable ω} (h : w.device.Orderly ∧ w.device.Consistent) :
    w.opened.device.Orderly ∧ w.opened.device.Consistent := by
  have hmoved : ∀ (ops : List Own) (d : Firmware.Device), d.Orderly ∧ d.Consistent →
      (ops.foldl (fun d op => d.step op.val) d).Orderly ∧
        (ops.foldl (fun d op => d.step op.val) d).Consistent :=
    fun ops d hd => Lib.foldl_preserves (P := fun d : Firmware.Device => d.Orderly ∧ d.Consistent)
      (fun d op hd => ⟨Firmware.Device.orderly_step d op.val hd.1, d.consistent_step op.val hd.2⟩) ops hd
  refine hmoved w.pause.ops _ ?_
  dsimp only
  cases w.pause.restart with
  | none => exact h
  | some board => exact ⟨Firmware.Device.orderly_start _ _, Firmware.Device.consistent_start _ _⟩

/-- A watcher without a target that knows no pin, before it opens this device. -/
structure Waiting (c : Ctx (Cable ω)) : Prop where
  conn : c.loop.conn = none
  target : c.loop.target = none
  known : ∀ gpio, c.loop.known gpio = none
  untargeted : Untargeted c
  device : c.world.device.Orderly ∧ c.world.device.Consistent

section Methods
variable [World ω] {b c : Ctx (Cable ω)} {conn : Connection} {opened : Firmware.Device}

omit [World ω] in
/-- While events are queued, the answer is no reference: the watcher still knows no pin. -/
theorem begun_queued {asked : Asked (Cable ω)} {answer : Status} (h : Started opened none b c)
    (hasked : c.asked = b.asked ++ [asked]) (hreport : asked.report = hostReport answer)
    (hdevice : asked.world.device = c.world.device)
    (hqueued : c.world.device.engine.queue.count ≠ 0) : Begun opened b c := by
  obtain ⟨conn, hsome, hawaiting, hseq⟩ := h.conn
  refine fun _ => ⟨asked, answer, hasked, hreport, fun hapart => ?_⟩
  rw [Apart, hdevice, if_neg hqueued] at hapart
  rw [mark, reference, hdevice, if_neg hqueued, if_neg hqueued]
  refine ⟨h.target, h.configured, fun gpio hgpio => ?_, h.since.of_coherent hapart, h.next.ge,
    h.next.trans_le h.since.le_length, h.faithful, ⟨conn, hsome, hawaiting, ?_⟩, fun _ => ?_⟩
  · rw [h.known] at hgpio
    cases hgpio
  · rw [hseq]
    exact Cable.marked_opened h.next.ge
  · rw [Cable.heard_nil h.next.le, h.told]
    exact ⟨knows_noStatus h.known, (List.append_nil _).symm⟩

/-- While nothing is queued, the answer is the reference. -/
theorem begun_absorb (nowUs : U64) {asked : Asked (Cable ω)} {answer : Status}
    (hanswer : answer = c.world.device.engine.getStatus nowUs)
    (h : Started opened (if answer.seq ≠ 0 then some answer.seq else none) b c) (hclocked : Clocked c)
    (hasked : c.asked = b.asked ++ [asked]) (hreport : asked.report = hostReport answer)
    (hdevice : asked.world.device = c.world.device) (hnext : asked.world.next = c.world.next)
    (hzero : c.world.device.engine.queue.count = 0) :
    (absorb (hostReport answer)).wp (fun _ => Begun opened b) c := by
  obtain ⟨conn, hsome, hawaiting, hseq⟩ := h.conn
  refine wp_mono (wp_absorb_from _ (by rw [hsome]; rfl) hclocked h.faithful) ?_
  rintro (e | _) d hd
  · exact hd.elim
  obtain ⟨hsame, hdevice', hnext', hasked', hknows, hfaithful, hchanges⟩ := hd
  refine fun _ => ⟨asked, answer, hasked'.trans hasked, hreport, fun hapart => ?_⟩
  rw [Apart, Cable.line, hdevice, hnext, if_pos hzero] at hapart
  rw [mark, reference, hdevice, if_pos hzero, if_pos hzero]
  have hempty : c.world.device.engine.queue.toList = [] := by
    refine List.eq_nil_of_length_eq_zero ?_
    rw [Firmware.EventQueue.length_toList, hzero]
    rfl
  have hsince := h.since.answered hempty nowUs
  have hmarked := Cable.marked_answered h.since h.next hempty nowUs hapart
  have hle : d.world.next ≤ c.world.device.sent.length := by
    rw [hnext', h.next]
    exact h.since.le_length
  subst hanswer
  refine ⟨by rw [hsame]; exact h.target, by rw [hsame]; exact h.configured, fun gpio hgpio => ?_,
    by rw [hdevice']; exact hsince, by rw [hnext']; exact h.next.ge, by rw [hdevice']; exact hle, hfaithful,
    ⟨conn, (congrArg WatchLoop.conn hsame).trans hsome, hawaiting, ?_⟩, fun _ => ?_⟩
  · refine isMonitored_of_knows hknows (fun n hn => ?_) hgpio
    rw [hsame, h.configured]
    exact hsince.monitored hn
  · rw [hseq]
    exact hmarked.moved (c.world.moved_refl.of_same hdevice' hnext') hsince
  · rw [Cable.heard_nil hle, hchanges _ (knows_noStatus h.known) (goesOn_noStatus _), h.told, news_noStatus,
      List.append_nil]
    exact ⟨hknows, (List.append_nil _).symm⟩

/-- The watcher takes the answer as its reference, unless events are queued. -/
theorem begun_status (at' : Instant) (nowUs : U64) {answer : Status} {asked : Asked (Cable ω)}
    (hanswer : answer = c.world.device.engine.getStatus nowUs)
    (h : Started opened (if answer.seq ≠ 0 ∧ (hostReport answer).moreEvents = false then some answer.seq
      else none) b c)
    (hasked : c.asked = b.asked ++ [asked]) (hreport : asked.report = hostReport answer)
    (hdevice : asked.world.device = c.world.device) (hnext : asked.world.next = c.world.next) :
    (status (hostReport answer) at' 0).wp (fun _ => Begun opened b) c := by
  subst hanswer
  simp only [Cable.moreEvents_answer, Bool.not_eq_false', decide_eq_true_iff] at h
  obtain ⟨conn, hconn, hawaiting, hseq⟩ := h.conn
  have hrequest : contains (hostReport (c.world.device.engine.getStatus nowUs)).reason
      Host.Reason.hostRequest = true :=
    (by decide : contains Firmware.reasonHostRequest Host.Reason.hostRequest = true)
  have hchanged : contains (hostReport (c.world.device.engine.getStatus nowUs)).reason
      Host.Reason.configChanged = false :=
    (by decide : contains Firmware.reasonHostRequest Host.Reason.configChanged = false)
  refine wp_status_noting (F := fun w => w = c.world) at' 0 hconn hawaiting h.faithful rfl (fun htells => ?_)
    (fun _ c' hnone hsome => ?_) ?_
  · rw [hchanged] at htells
    cases htells
  · rw [hnone] at hsome
    cases hsome
  intro conn' c1
  rw [hrequest, Cable.moreEvents_answer]
  dsimp only
  rw [Bool.not_true, Bool.false_and, Bool.or_false, Bool.false_or, Bool.true_and, if_pos rfl, hseq]
  intro hseq' hawaiting' hclock h1
  obtain ⟨device, hsome⟩ := h1.conn
  have hloop : c1.loop =
      { c.loop with conn := c1.loop.conn, pending := c1.loop.pending, settleAt := c1.loop.settleAt } :=
    h1.loop
  have hworld : c1.world = c.world := h1.world
  have h1' : Started opened conn'.snapshotSeq b c1 := by
    refine ⟨?_, ?_, fun gpio => ?_, by rw [hworld]; exact h.since, by rw [hworld]; exact h.next, h1.faithful,
      ⟨_, hsome, hawaiting', rfl⟩, h1.changes.trans h.told⟩
    · rw [hloop]
      exact h.target
    · rw [hloop]
      exact h.configured
    · rw [hloop]
      exact h.known gpio
  have hasked1 : c1.asked = b.asked ++ [asked] := h1.asked.trans hasked
  rw [← hworld] at hdevice hnext
  rw [hseq'] at h1'
  by_cases hzero : c.world.device.engine.queue.count = 0
  · rw [decide_eq_true hzero, Bool.not_true, if_neg Bool.false_ne_true]
    rw [if_congr (and_iff_left hzero) rfl rfl] at h1'
    refine begun_absorb nowUs (by rw [hworld]) h1' (fun conn hc => ?_) hasked1 hreport hdevice hnext
      (by rw [hworld]; exact hzero)
    rw [hsome] at hc
    obtain rfl := Option.some.inj hc
    exact hclock
  · rw [decide_eq_false hzero, Bool.not_false, if_pos rfl]
    rw [if_neg fun hboth => hzero hboth.2] at h1'
    exact begun_queued h1' hasked1 hreport hdevice (by rw [hworld]; exact hzero)

omit [World ω] in
theorem begun_none (h : c.loop.conn = none) : Begun opened b c := fun hsome => by
  rw [h] at hsome
  cases hsome

theorem Started.push {seq : Option U16} (h : Started opened seq b c) {event : Event} (hon : event.onOff = [])
    (hchange : event.change = none) : Started opened seq b (c.push event) where
  target := h.target
  configured := h.configured
  known := h.known
  since := h.since
  next := h.next
  faithful := h.faithful.push hon
  conn := h.conn
  told := by
    rw [changes_push, hchange, h.told]
    exact List.append_nil _

theorem begun_snapshot (h : Started opened none b c) (hasked : c.asked = b.asked) :
    snapshot.wp (fun _ => Begun opened b) c := by
  obtain ⟨conn, hconn, hawaiting, -⟩ := h.conn
  unfold snapshot
  rw [wp_bind, wp_result, wp_onDevice conn hconn]
  refine Cable.moves_requestStatus (fun e w hw => ?_) fun nowUs w hw => ?_
  · exact wp_lost_unconnected e fun _ _ => begun_none
  · rw [caught_ok, post_ok]
    refine (connection_bind rfl _).mpr ?_
    rw [setConn_bind, update_bind, instant_bind, wp_bind, wp_catching]
    refine wp_mono (Q := fun _ => Begun opened b) (begun_status _ nowUs rfl ?_ (congrArg (· ++ [_]) hasked)
      rfl rfl rfl) fun r c' h' => ?_
    · exact ⟨h.target, h.configured, h.known, (hw.since h.since).1, hw.next_eq.trans h.next,
        h.faithful.of_view rfl, ⟨_, rfl, hawaiting, rfl⟩, h.told⟩
    · rcases r with (_ | _ | _ | _) | _ <;> exact h'

/-- A new connection is told about, and then the device is asked for its state. -/
theorem begun_connected (entry : DeviceEntry) (info : DeviceInfo) (device : Host.Device) (found : PinConfig)
    (h : Entering opened b c) (hfound : found.toFirmware = opened.engine.config) :
    (connected entry info device found [] false).wp (fun _ => Begun opened b) c := by
  unfold connected
  rw [setConn_bind, setLoop_bind, loop_bind, setLoop_bind]
  generalize hloop : ({ c.loop.resetFailures with
    conn := some ⟨device, .empty, none, none, false⟩, everConnected := true } : WatchLoop) = l
  have hfaithful : Faithful { c with loop := l } := h.faithful.of_view (by rw [← hloop]; rfl)
  have hstarted : Started opened none b { c with loop := l.setConfig found } := by
    refine ⟨?_, hfound, fun gpio => ?_, h.since, h.next, stable_faithful.setConfig found hfaithful, ?_,
      h.told⟩
    · rw [← hloop]
      exact h.target
    · have hknown : l.known gpio = none := by rw [← hloop]; exact h.known gpio
      simp [WatchLoop.setConfig, WatchLoop.retain, hknown]
    · exact ⟨_, by rw [← hloop]; rfl, rfl, rfl⟩
  have htold : Started opened none b (Ctx.push { c with loop := l.setConfig found }
      (.connected entry.serial entry.path info found c.loop.everConnected)) := hstarted.push rfl rfl
  subst hloop
  refine setConfig_sound hfaithful ?_
  rw [emit_bind]
  refine wp_then (R := fun _ c => Started opened none b c ∧ c.asked = b.asked) ?_ fun _ c1 h1 => ?_
  · split
    · exact (wp_emit _ _).mpr ⟨htold.push rfl rfl, h.asked⟩
    · exact (wp_only _ _).mpr ⟨fun hne => absurd rfl hne, fun _ => ⟨htold, h.asked⟩⟩
  · rw [if_neg Bool.false_ne_true]
    exact begun_snapshot h1.1 h1.2

theorem Entering.moved (h : Entering opened b c) {w : Cable ω} (hw : c.world.Moved w) {loop : WatchLoop}
    (hloop : loop = { c.loop with info := loop.info }) : Entering opened b { c with world := w, loop } where
  conn := by rw [hloop]; exact h.conn
  target := by rw [hloop]; exact h.target
  known := by rw [hloop]; exact h.known
  since := (hw.since h.since).1
  next := hw.next_eq.trans h.next
  faithful := h.faithful.of_view (by rw [Ctx.view, hloop]; rfl)
  told := h.told
  asked := h.asked

theorem begun_connect (entry : DeviceEntry)
    (h : Entering c.world.opened.device b { c with world := c.world.opened }) :
    (connect entry).wp (fun _ => Begun c.world.opened.device b) c := by
  unfold connect
  rw [wp_bind, wp_call, post_ok]
  have hsame : c.world.opened.Moved (World.openDevice entry c.world).2 :=
    c.world.opened.moved_refl.of_same rfl rfl
  have h1 : Entering c.world.opened.device b { c with world := (World.openDevice entry c.world).2 } :=
    h.moved hsame rfl
  rcases (World.openDevice entry c.world).1 with e | _
  · exact begun_none h1.conn
  refine wp_then (R := fun _ => Entering c.world.opened.device b) h1 fun _ c1 h1 => ?_
  rw [wp_bind, wp_call, post_ok, wp_bind]
  have hseed : c1.world.Moved (World.seed c1.world).2 := c1.world.moved_refl.of_same rfl rfl
  have h2 : Entering c.world.opened.device b { c1 with world := (World.seed c1.world).2 } :=
    h1.moved hseed rfl
  refine wp_useDevice Cable.moves_readInfo (fun info d3 w3 h3 => ?_) fun e d3 w3 h3 => begun_none h2.conn
  rw [post_ok, setLoop_bind, wp_bind]
  have h4 : Entering c.world.opened.device b
      { c1 with world := w3, loop := { c1.loop with info := some info } } := h2.moved h3 rfl
  refine wp_useDevice (Cable.moves_getPinConfig (Q := fun r s => w3.Moved s.2 ∧ ∀ report : PinConfigReport,
    r = .ok report → report.config.toFirmware = s.2.device.engine.config) h4.since.orderly.inv
    (fun _ _ hw => ⟨hw, nofun⟩) fun report d w hw hread => ⟨hw, fun _ heq => by cases heq; exact hread⟩)
    (fun report d5 w5 h5 => ?_) fun e d5 w5 h5 => begun_none h2.conn
  rw [post_ok, loop_bind]
  have h6 : Entering c.world.opened.device b
      { c1 with world := w5, loop := { c1.loop with info := some info } } := h4.moved h5.1 rfl
  split
  · exact begun_connected entry info d5 report.config h6 ((h5.2 report rfl).trans h6.since.configured)
  · next target htarget => cases h2.target.symm.trans htarget

/-- The watcher looks for the device. -/
theorem begun_tryConnect (h : Idle c) (htarget : c.loop.target = none)
    (hknown : ∀ gpio, c.loop.known gpio = none)
    (hdevice : c.world.device.Orderly ∧ c.world.device.Consistent)
    (hsettled : c.world.opened.device.engine.configChanged = false)
    (htold : changes c.emitted = changes b.emitted) (hasked : c.asked = b.asked) :
    tryConnect.wp (fun _ => Begun c.world.opened.device b) c := by
  have hfailed : ∀ e {c1 : Ctx (Cable ω)}, Idle c1 →
      (failed e >>= fun _ => scanLater).wp (fun _ => Begun c.world.opened.device b) c1 := fun e c1 h1 =>
    wp_then (idle_failed e h1) fun _ c2 h2 => begun_none h2.conn
  have hsame : ∀ (world : ω) {loop : WatchLoop}, SameLife c.loop loop → loop.known = c.loop.known →
      loop.config = c.loop.config → loop.activeLow = c.loop.activeLow →
      Idle { c with world := { c.world with world }, loop } := fun _ _ hs hknown hconfig hlow =>
    h.of_same hs (by simp [Ctx.view, hknown, hconfig, hlow])
  unfold tryConnect
  rw [wp_bind, wp_call, post_ok]
  split
  · exact begun_none h.conn
  · exact hfailed _ (hsame _ ⟨rfl, rfl, rfl, rfl, rfl⟩ rfl rfl rfl)
  · rw [loop_bind]
    dsimp only
    split
    · rw [setLoop_bind]
      exact begun_none h.conn
    · next entry others _ =>
      split
      · exact begun_none h.conn
      · rw [setLoop_bind, wp_bind, wp_result]
        have h2 : Idle { c with
            world := { c.world with world := (World.devices c.world.world).2 }
            loop := { c.loop with serial := some entry.serial } } :=
          hsame _ ⟨rfl, rfl, rfl, rfl, rfl⟩ rfl rfl rfl
        have hopened := Cable.orderly_opened hdevice
        refine wp_mono (Q := fun r c' => Begun c.world.opened.device b c' ∧ attempted r c')
          ⟨begun_connect entry ⟨h.conn, htarget, hknown, .opened hopened.1 hopened.2 hsettled, rfl,
            h.faithful.of_view rfl, htold, hasked⟩, attempted_connect entry h2⟩ fun r c3 h3 => ?_
        rcases r with (e | _ | _ | _) | _
        · exact hfailed e (h3.2.2.2 rfl)
        · exact h3.1
        · exact h3.1
        · exact h3.1
        · exact h3.1

theorem begun_attend (h : Waiting c) (hsound : Sound c)
    (hsettled : c.world.opened.device.engine.configChanged = false)
    (htold : changes c.emitted = changes b.emitted) (hasked : c.asked = b.asked) :
    attend.wp (fun _ => Begun c.world.opened.device b) c := by
  have hrestore : c.loop.restoreAt = none := hsound.alarms.restore h.conn
  have hsettle : c.loop.settleAt = none := by
    have hsettle := hsound.alarms.settle
    rw [h.conn] at hsettle
    simpa using hsettle
  have hoff : ∀ now, ¬ due none now = true := fun _ hdue => by cases hdue
  have hidle := sound_idle (hsound.world (World.instant c.world).2) h.conn
  unfold attend
  rw [instant_bind, loop_bind]
  dsimp only
  rw [hrestore, hsettle, if_neg (hoff _), if_neg (hoff _), if_pos (Or.inr (by rw [h.conn]; rfl))]
  split
  · rw [setLoop_bind]
    exact begun_tryConnect hidle h.target h.known h.device hsettled htold hasked
  · exact begun_none h.conn

theorem begun_iterate (h : Waiting c) (hsound : Sound c)
    (hsettled : c.world.opened.device.engine.configChanged = false) :
    iterate.wp (fun _ => Begun c.world.opened.device c) c := by
  have hsound' : ∀ {pending shared serving}, Sound
      { c with loop := { c.loop with pending }, shared, serving } :=
    hsound.of_same ⟨rfl, rfl, rfl, rfl, rfl⟩ rfl
  unfold iterate
  rw [gets_bind]
  split
  · next request rest hserving =>
    rw [update_bind]
    refine wp_seq (R := fun _ => Begun c.world.opened.device c) ?_ (fun _ _ h' => h') fun _ _ h' => h'
    cases request with
    | setTargetPins target =>
      refine absurd ?_ (h.untargeted target).1
      rw [hserving]
      exact List.mem_cons_self
    | setOutputs levels =>
      unfold serve
      rw [wp_bind, wp_result]
      refine (loop_bind _).mpr ?_
      dsimp only
      rw [h.conn]
      exact begun_none h.conn
  · unfold deliver takeRequests
    rw [update_bind, gets_bind]
    split
    · exact begun_none h.conn
    · rw [update_bind, gets_bind]
      split
      · exact begun_none h.conn
      · next hserving =>
        have hempty : c.shared.requests = [] := not_not.mp hserving
        refine wp_seq (begun_attend ⟨h.conn, h.target, h.known, fun target => ?_, h.device⟩ hsound' hsettled
          rfl rfl) (fun _ _ h' => h') fun _ _ h' => h'
        dsimp only
        rw [hempty]
        exact ⟨nofun, nofun⟩

end Methods

/-! ### Every run -/

section Run
variable [World ω] {w : Watcher (Cable ω)} {c : Ctx (Cable ω)}

/-- Running a request or an alarm adds no request. -/
theorem untargeted_iterate (h : Untargeted c) : iterate.wp (fun _ => Untargeted) c := by
  have hattend : ∀ c : Ctx (Cable ω), attend.wp (fun _ => Posted c) c := fun c =>
    Posting.attend.keeps c c (.refl c)
  have hposted : ∀ {c c' : Ctx (Cable ω)}, Untargeted c → c'.shared = c.shared → c'.serving = c.serving →
      Untargeted c' := fun h hshared hserving target => by
    rw [hshared, hserving]
    exact h target
  unfold iterate
  rw [gets_bind]
  split
  · next request rest hserving =>
    rw [update_bind]
    have h1 : Untargeted { c with serving := rest } := fun target =>
      ⟨fun hmem => (h target).1 (by rw [hserving]; exact List.mem_cons_of_mem _ hmem), (h target).2⟩
    refine wp_seq (R := fun _ => Untargeted) (wp_mono (serve_posted request _) ?_) (fun _ _ h' => h')
      fun _ _ h' => h'
    rintro (e | _) c' h'
    · exact hposted h1 h'.2.2.shared h'.2.2.serving
    · obtain ⟨reply, h'⟩ := h'
      exact hposted h1 h'.shared h'.serving
  · unfold deliver takeRequests
    rw [update_bind, gets_bind]
    split
    · exact h
    · rw [update_bind, gets_bind]
      have hnone : ∀ {loop serving shared}, serving = c.shared.requests → shared.requests = [] → Untargeted
          { c with loop, serving, shared } := fun hserving hrequests target => by
        dsimp only
        rw [hserving, hrequests]
        exact ⟨(h target).2, nofun⟩
      split
      · exact hnone rfl rfl
      · refine wp_seq (R := fun _ => Untargeted) (wp_mono (hattend _) fun _ c' h' => ?_)
          (fun _ _ h' => h') fun _ _ h' => h'
        exact hposted (hnone rfl rfl) h'.shared h'.serving

theorem untargeted_step (w : Watcher (Cable ω)) {input : Input} (h : Untargeted w.ctx)
    (hinput : ∀ target, input ≠ .setTargetPins target) : Untargeted (w.step input).ctx := by
  have hfinish : ∀ {c : Ctx (Cable ω)} (error : Option Error), Untargeted c →
      Untargeted (c.finish error) := by
    intro c error h target
    cases error <;> exact ⟨(h target).1, nofun⟩
  cases input with
  | turn =>
    refine Watcher.turn_of_wp h (wp_mono (untargeted_iterate h) fun r c' h' => ?_)
    rcases r with (_ | _ | _ | _) | (_ | _)
    · exact h'
    · exact hfinish _ h'
    · exact h'
    · exact h'
    · exact hfinish _ h'
    · exact h'
  | take => exact h
  | setTargetPins target => exact absurd rfl (hinput target)
  | setOutputs levels =>
    change Untargeted (w.ctx.call _)
    unfold Ctx.call
    split
    · exact h
    · refine fun target => ⟨(h target).1, fun hmem => ?_⟩
      rcases List.mem_append.mp hmem with hmem | hmem
      · exact (h target).2 hmem
      · cases List.mem_singleton.mp hmem
  | close => exact h

omit [World ω] in
theorem unconnected_finish (error : Option Error) (c : Ctx (Cable ω)) :
    (c.finish error).loop.conn = none := by
  have hdropped : c.loop.dropConnection.conn = none := by
    unfold WatchLoop.dropConnection
    split
    · rfl
    · next hnone => simpa using hnone
  cases error <;> exact hdropped

/-- What holds of the context after an iteration, and of one without a connection, holds after a step of a
    watcher that the application sets no target of. -/
theorem step_of_iterate {P : Ctx (Cable ω) → Prop} {input : Input}
    (hinput : ∀ target, input ≠ .setTargetPins target)
    (hiterate : w.alive = true → iterate.wp (fun _ => P) w.ctx)
    (hfinish : ∀ c, c.loop.conn = none → P c) (hshared : ∀ shared, P { w.ctx with shared }) :
    P (w.step input).ctx := by
  cases input with
  | turn =>
    by_cases halive : w.alive = true
    · refine Watcher.turn_of_wp (hshared w.ctx.shared) (wp_mono (hiterate halive) fun r c' h' => ?_)
      rcases r with (_ | _ | _ | _) | (_ | _)
      · exact h'
      · exact hfinish _ (unconnected_finish _ _)
      · exact h'
      · exact h'
      · exact hfinish _ (unconnected_finish _ _)
      · exact h'
    · rw [Watcher.step, Watcher.turn, if_neg halive]
      exact hshared w.ctx.shared
  | take => exact hshared _
  | setTargetPins target => exact absurd rfl (hinput target)
  | setOutputs levels =>
    change P (w.ctx.call _)
    unfold Ctx.call
    split
    · exact hshared w.ctx.shared
    · exact hshared _
  | close => exact hshared _

/-- What every step keeps while the connection lasts. -/
structure Following (k m : ℕ) (ref : Status) (config : Firmware.PinConfig) (base : List OnOffChange)
    (asked : List (Asked (Cable ω))) (w : Watcher (Cable ω)) : Prop where
  lives : w.Lives
  untargeted : Untargeted w.ctx
  follows : Follows k m ref config base asked w.ctx

theorem following_step {input : Input} (hinput : ∀ target, input ≠ .setTargetPins target)
    (hconn : w.ctx.loop.conn.isSome = true) (h : Following k m ref config base asked w) :
    Following k m ref config base asked (w.step input) := by
  obtain ⟨hattached, rfl⟩ := h.follows hconn
  refine ⟨Watcher.lives_step w input h.lives, untargeted_step w h.untargeted hinput, ?_⟩
  refine step_of_iterate hinput (fun halive => ?_) (fun c => follows_lost) fun shared _ => ⟨?_, rfl⟩
  · exact follows_iterate hattached (h.lives.sound halive) h.untargeted
  · exact hattached.of rfl (fun conn hsome => ⟨conn, hsome, rfl, rfl⟩) w.ctx.world.moved_refl rfl
      (hattached.faithful.of_view rfl)

/-- The connection lasts over these inputs. -/
def Lasts (w : Watcher (Cable ω)) (inputs : List Input) : Prop :=
  ∀ before, before <+: inputs → (Lib.run Watcher.step w before).ctx.loop.conn.isSome = true

theorem following_run : ∀ (inputs : List Input) {w : Watcher (Cable ω)},
    (∀ target, .setTargetPins target ∉ inputs) → Lasts w inputs → Following k m ref config base asked w →
    Following k m ref config base asked (Lib.run Watcher.step w inputs)
  | [], _, _, _, h => h
  | input :: inputs, w, hinputs, hlasts, h => by
    have hstep : Following k m ref config base asked (w.step input) :=
      following_step (fun target heq => hinputs target (heq ▸ List.mem_cons_self))
        (hlasts [] List.nil_prefix) h
    refine following_run inputs (fun target hmem => hinputs target (List.mem_cons_of_mem _ hmem))
      (fun before hbefore => ?_) hstep
    exact hlasts (input :: before) ((List.prefix_cons_inj input).mpr hbefore)

/-- The step with which a watcher opens the device. -/
theorem begun_step {input : Input} (hinput : ∀ target, input ≠ .setTargetPins target) (h : Waiting w.ctx)
    (hlives : w.Lives) (hsettled : w.ctx.world.opened.device.engine.configChanged = false) :
    Begun w.ctx.world.opened.device w.ctx (w.step input).ctx :=
  step_of_iterate hinput (fun halive => begun_iterate h (hlives.sound halive) hsettled)
    (fun _ => begun_none) fun _ => begun_none h.conn

/-- The edge events that were not yet reflected in the levels that the watcher learned from, as changes.
    While events were queued these are the levels of the first report that it read, or else those of the
    answer. -/
def unreflected (opened : Firmware.Device) (asked : Asked (Cable ω)) (c : Ctx (Cable ω)) :
    List OnOffChange :=
  if asked.world.device.engine.queue.count = 0 then
    c.loop.story asked.report ((c.world.heard asked.world.device.sent.length).map hostReport)
  else c.loop.storyOf ((c.world.heard opened.sent.length).map hostReport)

omit [World ω] in
theorem inferred_unreflected (opened : Firmware.Device) (asked : Asked (Cable ω)) (c : Ctx (Cable ω)) :
    ∀ change ∈ unreflected opened asked c, change.inferred = false := by
  rw [unreflected, ← story_noStatus]
  split
  · exact WatchLoop.inferred_story _ _ _
  · exact WatchLoop.inferred_story _ _ _

/-- A watcher without a target that knows no pin opens a device with this step, and the connection lasts over
    the inputs after it. The configuration of the device stays, and no event is lost. -/
structure Visits (w : Watcher (Cable ω)) (input : Input) (inputs : List Input) : Prop where
  conn : w.ctx.loop.conn = none
  target : w.ctx.loop.target = none
  known : ∀ gpio, w.ctx.loop.known gpio = none
  untargeted : Untargeted w.ctx
  calls : ∀ target, .setTargetPins target ∉ input :: inputs
  lasts : Lasts (w.step input) inputs
  settled : w.ctx.world.opened.device.engine.configChanged = false
  lossless : (Lib.run Watcher.step w (input :: inputs)).ctx.world.device.Lossless
    w.ctx.world.opened.device.sent.length

/-- The watcher will find this device. -/
def plug (w : Watcher (Cable ω)) (device : Firmware.Device) : Watcher (Cable ω) :=
  { w with ctx := { w.ctx with world := { w.ctx.world with device } } }

/-- A watcher did anything, and a device did anything. When the watcher opens it, then, whatever the device
    does and whenever the watcher reads, it tells exactly the events that were not reflected in the levels it
    learned from, each once and in their order, and none of them is inferred, if it can tell what the answer
    shows. -/
theorem told_once (o : WatchOptions) (cable : Cable ω) (before : List Input) (info : Firmware.DeviceInfo)
    (startUs : U64) (ops : List Firmware.Op) (input : Input) (inputs : List Input) (w : Watcher (Cable ω))
    (hw : w = plug (Lib.run Watcher.step (.start o cable) before)
      (Lib.run Firmware.Device.step (.start info startUs) ops)) (hvisits : Visits w input inputs) :
    ∃ asked, (w.step input).ctx.asked = w.ctx.asked ++ [asked] ∧
      (Apart w.ctx.world.opened.device asked.world →
        changes (Lib.run Watcher.step w (input :: inputs)).ctx.emitted = changes w.ctx.emitted ++
          unreflected w.ctx.world.opened.device asked (Lib.run Watcher.step w (input :: inputs)).ctx ∧
        ∀ change ∈ unreflected w.ctx.world.opened.device asked
          (Lib.run Watcher.step w (input :: inputs)).ctx, change.inferred = false) := by
  have hlives : w.Lives := by
    have hbefore : (Lib.run Watcher.step (.start o cable) before).Lives :=
      Lib.run_preserves Watcher.lives_step before (Watcher.lives_start o cable)
    rw [hw]
    exact ⟨hbefore.accepted, fun halive => (hbefore.sound halive).world _⟩
  have hdevice : w.ctx.world.device = Lib.run Firmware.Device.step (.start info startUs) ops := by
    rw [hw]
    rfl
  have hwaiting : Waiting w.ctx := by
    refine ⟨hvisits.conn, hvisits.target, hvisits.known, hvisits.untargeted, ?_⟩
    rw [hdevice]
    exact ⟨Lib.run_preserves Firmware.Device.orderly_step ops (Firmware.Device.orderly_start info startUs),
      Lib.run_preserves (fun d op hd => d.consistent_step op hd) ops
        (Firmware.Device.consistent_start info startUs)⟩
  have hfirst : ∀ target, input ≠ .setTargetPins target := fun target heq =>
    hvisits.calls target (heq ▸ List.mem_cons_self)
  have hrest : ∀ target, .setTargetPins target ∉ inputs := fun target hmem =>
    hvisits.calls target (List.mem_cons_of_mem _ hmem)
  have hsome : (w.step input).ctx.loop.conn.isSome = true := hvisits.lasts [] List.nil_prefix
  obtain ⟨asked, answer, hasked, hreport, hattached⟩ :=
    begun_step hfirst hwaiting hlives hvisits.settled hsome
  refine ⟨asked, hasked, fun hapart => ⟨?_, inferred_unreflected _ _ _⟩⟩
  have hfollowing := following_run inputs hrest hvisits.lasts ⟨Watcher.lives_step w input hlives,
    untargeted_step w hvisits.untargeted hfirst, fun _ => ⟨hattached hapart, hasked⟩⟩
  have hend := (hfollowing.follows (hvisits.lasts inputs (List.prefix_refl inputs))).1
  refine (hend.told hvisits.lossless).2.trans (congrArg (changes w.ctx.emitted ++ ·) ?_)
  rw [mark, reference, unreflected]
  split
  · rw [hreport]
    rfl
  · exact story_noStatus _ _

end Run

/-! ### Reports that wait while the device answers -/

/-- A watcher of a device with eight inputs, which did this before it is opened, and does this before it
    answers and before each read. -/
def visitor (before : List Firmware.Op) (answer : List Own) (reads : List (List Own)) :
    Watcher (Cable Host.Script) :=
  plug (.start ⟨none, none, [], 1⟩
    (.start ⟨[], [], [], reads.map fun _ => .ok [1]⟩ (Firmware.Device.sampleInfo 0xFF) 0
      (List.replicate 3 (quietPause 0) ++ (answer :: reads).map fun ops => ⟨none, ops, 0, false⟩)))
    (Lib.run Firmware.Device.step (.start (Firmware.Device.sampleInfo 0xFF) 0) before)

/-- GPIO0 changes its level, and the device hands over a report about it. -/
def reported (level : Bool) (nowUs : U64) : List Own :=
  [⟨.onEdge 0 level nowUs, nofun⟩, ⟨.task (nowUs + 20000) (if level then 0xFF else 0xFE), nofun⟩,
    ⟨.send (nowUs + 20000) true, nofun⟩]

/-- A periodic report was sent before. The pin falls before the answer and rises before the first read. -/
def secondReport : Watcher (Cable Host.Script) :=
  visitor [.task 1000 0xFF, .task 1000000 0xFF, .send 1000000 true] (reported false 1000100)
    [reported true 1030000, []]

/-- The first report of the device tells that the pin falls, before the answer. -/
def firstReport : Watcher (Cable Host.Script) := visitor [.task 1000 0xFF] (reported false 1100) [[]]

/-- A visit over some turns of the watch thread. -/
theorem visits_turns [World ω] {w : Watcher (Cable ω)} {turns : ℕ} (hconn : w.ctx.loop.conn = none)
    (htarget : w.ctx.loop.target = none) (hknown : ∀ gpio, w.ctx.loop.known gpio = none)
    (hserving : w.ctx.serving = []) (hrequests : w.ctx.shared.requests = [])
    (hlasts : ∀ n ≤ turns,
      (Lib.run Watcher.step w (List.replicate (n + 1) .turn)).ctx.loop.conn.isSome = true)
    (hsettled : w.ctx.world.opened.device.engine.configChanged = false)
    (hlossless : (Lib.run Watcher.step w (List.replicate (turns + 1) .turn)).ctx.world.device.Lossless
      w.ctx.world.opened.device.sent.length) : Visits w .turn (List.replicate turns .turn) where
  conn := hconn
  target := htarget
  known := hknown
  untargeted _ := by
    rw [hserving, hrequests]
    exact ⟨List.not_mem_nil, List.not_mem_nil⟩
  calls target hmem := by
    have hturns : Input.setTargetPins target ∈ List.replicate (turns + 1) Input.turn := hmem
    cases List.eq_of_mem_replicate hturns
  lasts before hbefore := by
    obtain ⟨hle, heq⟩ := List.prefix_replicate_iff.mp hbefore
    rw [heq]
    exact hlasts _ hle
  settled := hsettled
  lossless := hlossless

theorem visits_secondReport : Visits secondReport .turn (List.replicate 2 .turn) :=
  visits_turns rfl rfl (fun _ => rfl) rfl rfl (by decide +kernel) (by decide +kernel) (by decide +kernel)

theorem visits_firstReport : Visits firstReport .turn (List.replicate 1 .turn) :=
  visits_turns rfl rfl (fun _ => rfl) rfl rfl (by decide +kernel) (by decide +kernel) (by decide +kernel)

/-- The report that waits while the device answers is stale, and only the change after it is told. -/
theorem told_once_run :
    (changes (Lib.run Watcher.step secondReport (.turn :: List.replicate 2 .turn)).ctx.emitted).map
      (fun change => (change.gpio.toNat, change.level, change.inferred)) = [(0, true, false)] := by
  have hapart : ∀ asked ∈ (secondReport.step .turn).ctx.asked,
      asked.world.device.engine.queue.count = 0 ∧ asked.world.device.engine.hasSent = true ∧
        asked.world.device.engine.lastSeq ≠ 0 ∧ asked.world.line.unread.length ≤ 0x8001 := by decide +kernel
  have hunreflected : ∀ asked ∈ (secondReport.step .turn).ctx.asked,
      (changes secondReport.ctx.emitted ++ unreflected secondReport.ctx.world.opened.device asked
        (Lib.run Watcher.step secondReport (.turn :: List.replicate 2 .turn)).ctx).map
          (fun change => (change.gpio.toNat, change.level, change.inferred)) = [(0, true, false)] := by
    decide +kernel
  obtain ⟨asked, hasked, htold⟩ := told_once _ _ [] _ _ _ .turn (List.replicate 2 .turn) secondReport rfl
    visits_secondReport
  have hmem : asked ∈ (secondReport.step .turn).ctx.asked := by
    rw [hasked]
    exact List.mem_append_right _ List.mem_cons_self
  obtain ⟨hcount, hreference⟩ := hapart asked hmem
  rw [(htold (by rw [Apart, if_pos hcount]; exact Or.inl hreference)).1]
  exact hunreflected asked hmem

/-- The first report has the number 0, with which the answer is no reference: its event is told although the
    answer showed it, after a change that never was. -/
theorem told_twice : Visits firstReport .turn [.turn] ∧
    (∃ asked ∈ (firstReport.step .turn).ctx.asked, unreflected firstReport.ctx.world.opened.device asked
      (Lib.run Watcher.step firstReport [.turn, .turn]).ctx = []) ∧
    (changes (Lib.run Watcher.step firstReport [.turn, .turn]).ctx.emitted).map
      (fun change => (change.gpio.toNat, change.level, change.inferred)) =
        [(0, true, true), (0, false, false)] :=
  ⟨visits_firstReport, by decide +kernel, by decide +kernel⟩

end Hidpin.System
