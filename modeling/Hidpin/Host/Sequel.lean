import Hidpin.Host.OnOff
import Hidpin.Host.Missed
import Hidpin.Lib.Flips

/-! What a watcher tells of reports that go on from what it knows: the events of the pins it knows, each
    once and in their order, and no other change. -/

namespace Hidpin.Host
open Lib

/-- The change that a notification tells of, without its host time. -/
def Event.change : Event → Option OnOffChange
  | .onOffChange change => some { change with time := none }
  | _ => none

/-- The changes that the events tell. -/
def changes (emitted : List Emitted) : List OnOffChange := emitted.filterMap fun e => e.event.change

/-- The levels that the events of a pin leave. -/
def levelsOf (events : List EdgeEvent) (gpio : U8) : List Bool :=
  (events.filter fun event => decide (event.gpio = gpio)).map EdgeEvent.level

namespace StatusReport

/-- The pins a watcher knows once it has taken the levels of the report. -/
def covers (r : StatusReport) (gpio : U8) : Bool := decide (gpio.toNat < gpioCount) && r.isMonitored gpio

/-- The next report is about the pins of this one too, and its events flip their levels in turn up to its
    own. -/
def GoesOn (r r' : StatusReport) : Prop :=
  ∀ gpio, r.covers gpio = true →
    r'.covers gpio = true ∧ Flips (r.level gpio) (r'.level gpio) (levelsOf r'.events gpio)

/-- A report of the device itself that does not tell of a changed configuration. -/
def plain (r : StatusReport) : Bool :=
  !contains r.reason Reason.hostRequest && !contains r.reason Reason.configChanged

end StatusReport

namespace WatchLoop

/-- The change that an edge event of a report is. -/
def change (l : WatchLoop) (report : StatusReport) (event : EdgeEvent) : OnOffChange :=
  ⟨event.gpio, event.level != l.isActiveLow event.gpio, event.level, none, event.startUs report.timestampUs,
    false⟩

/-- The changes that the events of a report are, at the pins of the report before it. -/
def news (l : WatchLoop) (r r' : StatusReport) : List OnOffChange :=
  (r'.events.filter fun event => r.covers event.gpio).map (l.change r')

/-- The changes that the reports after one tell of. -/
def story (l : WatchLoop) : StatusReport → List StatusReport → List OnOffChange
  | _, [] => []
  | r, r' :: reports => l.news r r' ++ l.story r' reports

end WatchLoop

variable {ω : Type} {b c : Ctx ω}

theorem changes_push (event : Event) :
    changes (c.push event).emitted = changes c.emitted ++ event.change.toList := by
  rw [changes, Ctx.push, List.filterMap_append]
  cases hchange : event.change <;> simp [changes, hchange]

/-- The loop knows exactly what a report tells. -/
def Knows (report : StatusReport) (c : Ctx ω) : Prop :=
  ∀ gpio, c.loop.known gpio =
    if report.covers gpio then some (report.level gpio != c.loop.isActiveLow gpio) else none

/-- A context on the way through `absorb`, started in `b`: these changes were told. -/
structure Telling (b : Ctx ω) (told : List OnOffChange) (c : Ctx ω) : Prop where
  loop : c.loop = { b.loop with known := c.loop.known, pending := c.loop.pending }
  changes : changes c.emitted = changes b.emitted ++ told

/-- The pins known are those of the report before, and the events still to come go on from what is known. -/
def Expecting (r r' : StatusReport) (b : Ctx ω) (events : List EdgeEvent) (c : Ctx ω) : Prop :=
  ∀ gpio, if r.covers gpio then ∃ level, c.loop.known gpio = some (level != b.loop.isActiveLow gpio) ∧
      Flips level (r'.level gpio) (levelsOf events gpio)
    else c.loop.known gpio = none

theorem Telling.isActiveLow {told : List OnOffChange} (h : Telling b told c) (gpio : U8) :
    c.loop.isActiveLow gpio = b.loop.isActiveLow gpio := by
  rw [isActiveLow_eq, isActiveLow_eq, h.loop]

namespace Watch
open Prog
variable [World ω] {r r' : StatusReport}

/-- An event of a known pin is told as it is; one of another pin is not. -/
theorem wp_next_event {event : EdgeEvent} {events : List EdgeEvent} {told : List OnOffChange}
    (hconn : b.loop.conn.isSome = true) (hclock : Clocked b) (h : Telling b told c)
    (hexpecting : Expecting r r' b (event :: events) c) :
    (absorbEvent r' event).wp (post (fun _ c' =>
      Telling b (told ++ if r.covers event.gpio then [b.loop.change r' event] else []) c' ∧
        Expecting r r' b events c') fun _ _ => False) c := by
  have hothers : ∀ gpio, gpio ≠ event.gpio → levelsOf (event :: events) gpio = levelsOf events gpio :=
    fun gpio hne => by
      rw [levelsOf, List.filter_cons_of_neg (by simpa using hne.symm), levelsOf]
  have hown := hexpecting event.gpio
  unfold absorbEvent
  rw [wp_bind, wp_loop, post_ok]
  cases hcovers : r.covers event.gpio with
  | false =>
    rw [hcovers, if_neg Bool.false_ne_true] at hown
    rw [hown]
    refine ⟨by simpa [hcovers] using h, fun gpio => ?_⟩
    by_cases hgpio : gpio = event.gpio
    · rw [hgpio, hcovers, if_neg Bool.false_ne_true]
      exact hown
    · rw [← hothers gpio hgpio]
      exact hexpecting gpio
  | true =>
    rw [hcovers, if_pos rfl] at hown
    obtain ⟨level, hknown, hflips⟩ := hown
    have hgpio : event.gpio.toNat < gpioCount := of_decide_eq_true (Bool.and_eq_true_iff.mp hcovers).1
    have hcons : levelsOf (event :: events) event.gpio = event.level :: levelsOf events event.gpio := by
      simp [levelsOf]
    rw [hcons, flips_cons] at hflips
    obtain ⟨hlevel, hflips⟩ := hflips
    have hconn1 : c.loop.conn.isSome = true := by rw [h.loop]; exact hconn
    have hclock1 : Clocked c := fun conn hc => hclock conn (by rw [h.loop] at hc; exact hc)
    rw [hknown, h.isActiveLow]
    refine (indexed_bind (by simp [WatchLoop.polarityInRange, hgpio]) _).mpr ?_
    dsimp only
    rw [wp_bind, wp_only]
    refine ⟨fun hsame => ?_, fun _ => ?_⟩
    · have hne : ∀ level low : Bool, ((!level) != low) ≠ (level != low) := by decide
      rw [hlevel] at hsame
      exact absurd hsame (hne _ _)
    rw [post_ok]
    refine wp_then (wp_clockAt hconn1 hclock1 _) ?_
    rintro time _ ⟨w, rfl⟩
    simp only [wp_bind, wp_emit, wp_setLoop, post_ok]
    refine ⟨⟨?_, ?_⟩, fun gpio => ?_⟩
    · rw [Ctx.push, h.loop]
    · refine (changes_push _).trans ?_
      rw [h.changes, List.append_assoc]
      rfl
    · by_cases hsame : gpio = event.gpio
      · rw [hsame, hcovers, if_pos rfl]
        exact ⟨event.level, by simp, hflips⟩
      · rw [← hothers gpio hsame]
        simpa [Ctx.push, hsame] using hexpecting gpio

omit [World ω] in
/-- A level that is known already, or of a pin that is not known, is learned without a change. -/
theorem wp_silent_level {gpio : U8} {on : Bool} (hon : on = (r'.level gpio != c.loop.isActiveLow gpio))
    (h : ∀ was, c.loop.known gpio = some was → was = on) :
    (absorbLevel r' gpio).wp (post (fun _ c' =>
      c' = { c with loop := { c.loop with known := Function.update c.loop.known gpio (some on) } })
      fun _ _ => False) c := by
  unfold absorbLevel
  rw [wp_bind, wp_loop, post_ok, ← hon]
  cases hknown : c.loop.known gpio with
  | none => rfl
  | some was =>
    dsimp only
    rw [wp_bind, wp_only]
    exact ⟨fun hne => absurd (h was hknown) hne, fun _ => rfl⟩

omit [World ω] in
theorem wp_silent_levels (value : U8 → Bool) : ∀ (gpios : List U8) {c : Ctx ω},
    (∀ gpio, value gpio = (r'.level gpio != c.loop.isActiveLow gpio)) →
    (∀ gpio ∈ gpios, ∀ was, c.loop.known gpio = some was → was = value gpio) →
    (absorbLevels r' gpios).wp (post (fun _ c' => ∃ known, c' = { c with loop := { c.loop with known } } ∧
      ∀ gpio, known gpio = if gpio ∈ gpios then some (value gpio) else c.loop.known gpio) fun _ _ => False) c
  | [], c, _, _ => ⟨c.loop.known, rfl, by simp⟩
  | gpio :: gpios, c, hvalue, h => by
    refine wp_then (wp_silent_level (hvalue gpio) (h gpio List.mem_cons_self)) ?_
    rintro new _ rfl
    refine wp_then (wp_silent_levels value gpios hvalue fun other hmem was hwas => ?_) ?_
    · by_cases hother : other = gpio
      · rw [hother] at hwas ⊢
        simpa using hwas.symm
      · exact h other (List.mem_cons_of_mem gpio hmem) was (by simpa [hother] using hwas)
    rintro learned _ ⟨known, rfl, hknown⟩
    refine ⟨known, rfl, fun other => ?_⟩
    rw [hknown]
    by_cases hother : other = gpio
    · simp [hother]
    · simp [hother]

/-- Absorbing a report that goes on from the one the loop knows tells of its events only. -/
theorem wp_absorb_next (hconn : b.loop.conn.isSome = true) (hclock : Clocked b) (hknows : Knows r b)
    (hnext : r.GoesOn r') : (absorb r').wp (post (fun _ c =>
      Telling b (b.loop.news r r') c ∧ Knows r' c) fun _ _ => False) b := by
  have hstart : Expecting r r' b r'.events b := fun gpio => by
    cases hcovers : r.covers gpio with
    | false =>
      rw [if_neg Bool.false_ne_true]
      simpa [hcovers] using hknows gpio
    | true =>
      rw [if_pos rfl]
      exact ⟨r.level gpio, by simpa [hcovers] using hknows gpio, (hnext gpio hcovers).2⟩
  unfold absorb
  rw [wp_bind, wp_gets, post_ok]
  have hnews : ∀ event events, b.loop.news r { r' with events := event :: events } =
      (if r.covers event.gpio then [b.loop.change r' event] else []) ++ b.loop.news r { r' with events } :=
    fun event events => by
      cases hcovers : r.covers event.gpio <;> simp [WatchLoop.news, WatchLoop.change, hcovers]
  refine wp_then (wp_each (I := fun events c => ∃ told, Telling b told c ∧ Expecting r r' b events c ∧
    told ++ b.loop.news r { r' with events } = b.loop.news r r') (fun event events c => ?_) r'.events
    ⟨[], ⟨rfl, by simp⟩, hstart, rfl⟩) ?_
  · rintro ⟨told, htold, hexpecting, hleft⟩
    refine wp_mono (wp_next_event hconn hclock htold hexpecting) ?_
    rintro (_ | _) c' h'
    · exact h'
    · exact ⟨_, h'.1, h'.2, by rw [← hleft, hnews, List.append_assoc]⟩
  rintro _ c1 ⟨told, h1, hexpecting, hall⟩
  have hvalue : ∀ gpio, (r'.level gpio != b.loop.isActiveLow gpio) =
      (r'.level gpio != c1.loop.isActiveLow gpio) :=
    fun gpio => by rw [h1.isActiveLow]
  refine wp_then (wp_silent_levels (fun gpio => r'.level gpio != b.loop.isActiveLow gpio) _ hvalue
    fun gpio _ was hwas => ?_) ?_
  · have hleft := hexpecting gpio
    cases hcovers : r.covers gpio with
    | false =>
      rw [hcovers, if_neg Bool.false_ne_true, hwas] at hleft
      cases hleft
    | true =>
      rw [hcovers, if_pos rfl] at hleft
      obtain ⟨level, hknown, hflips⟩ := hleft
      rw [hwas] at hknown
      rw [Option.some.inj hknown, flips_nil.mp hflips]
  rintro learned _ ⟨known, rfl, hknown⟩
  have hafter : ∀ gpio, (if r'.isMonitored gpio then known gpio else none) =
      if r'.covers gpio then some (r'.level gpio != b.loop.isActiveLow gpio) else none := fun gpio => by
    have hleft := hexpecting gpio
    have hmem : gpio ∈ maskToGpios r'.monitored ↔ gpio.toNat < gpioCount ∧ r'.isMonitored gpio = true :=
      mem_maskToGpios
    simp only [hknown, hmem, StatusReport.covers]
    by_cases hgpio : gpio.toNat < gpioCount
    · by_cases hmonitored : r'.isMonitored gpio = true <;> simp [hgpio, hmonitored]
    · have hcovers : r.covers gpio = false := by simp [StatusReport.covers, hgpio]
      rw [hcovers, if_neg Bool.false_ne_true] at hleft
      simp [hgpio, hleft]
  simp only [wp_bind, wp_setLoop, wp_only, wp_emit, post_ok, wp_update]
  have hlow : ∀ gpio, c1.loop.isActiveLow gpio = b.loop.isActiveLow gpio := h1.isActiveLow
  have htold : changes c1.emitted = changes b.emitted ++ b.loop.news r r' := by
    rw [h1.changes, ← hall, WatchLoop.news]
    simp
  refine ⟨fun _ => ⟨⟨?_, ?_⟩, fun gpio => ?_⟩, fun _ => ⟨⟨?_, htold⟩, fun gpio => ?_⟩⟩
  · rw [Ctx.push, h1.loop]
    rfl
  · exact (changes_push _).trans (by rw [htold]; simp [Event.change])
  · exact (hafter gpio).trans (by rw [← hlow]; rfl)
  · rw [h1.loop]
    rfl
  · exact (hafter gpio).trans (by rw [← hlow]; rfl)

end Watch

/-- A connection on which reports are absorbed: they are newer than the snapshot, and no answer to a write is
    awaited. -/
def Listens (c : Ctx ω) : Prop :=
  ∃ conn, c.loop.conn = some conn ∧ conn.snapshotSeq = none ∧ conn.awaitingConfig = false

/-- After a report the loop knows it, and these changes were told. -/
structure Heeded (b : Ctx ω) (report : StatusReport) (told : List OnOffChange) (c : Ctx ω) : Prop where
  config : c.loop.config = b.loop.config
  activeLow : c.loop.activeLow = b.loop.activeLow
  listens : Listens c
  knows : Knows report c
  changes : changes c.emitted = changes b.emitted ++ told

theorem Heeded.change {report : StatusReport} {told : List OnOffChange} (h : Heeded b report told c) :
    c.loop.change = b.loop.change := by
  funext r event
  rw [WatchLoop.change, isActiveLow_eq, h.config, h.activeLow]
  rfl

theorem Heeded.story {report : StatusReport} {told : List OnOffChange} (h : Heeded b report told c) :
    ∀ (r : StatusReport) (reports : List StatusReport), c.loop.story r reports = b.loop.story r reports
  | _, [] => rfl
  | r, r' :: reports => by
    rw [WatchLoop.story, WatchLoop.story, WatchLoop.news, WatchLoop.news, h.change, h.story r' reports]

namespace Watch
open Prog
variable [World ω] {r r' : StatusReport}

/-- The context in which `status` absorbs a report, started in `b`: it told of no change, and the report is
    on the clock. -/
structure Absorbing (b c : Ctx ω) : Prop where
  config : c.loop.config = b.loop.config
  activeLow : c.loop.activeLow = b.loop.activeLow
  known : c.loop.known = b.loop.known
  changes : changes c.emitted = changes b.emitted
  conn : ∃ conn, c.loop.conn = some conn ∧ conn.snapshotSeq = none ∧ conn.awaitingConfig = false ∧
    conn.clock.cur.isSome = true
  faithful : Faithful b → Faithful c

omit [World ω] in
theorem Absorbing.clocked (h : Absorbing b c) : c.loop.conn.isSome = true ∧ Clocked c := by
  obtain ⟨conn, hconn, -, -, hclock⟩ := h.conn
  refine ⟨by rw [hconn]; rfl, fun conn' hc => ?_⟩
  rw [hconn] at hc
  rwa [← Option.some.inj hc]

theorem wp_heeded (hknows : Knows r b) (hnext : r.GoesOn r') (h : Absorbing b c) :
    (absorb r').wp (post (fun _ => Heeded b r' (b.loop.news r r')) fun _ _ => False) c := by
  obtain ⟨conn, hconn, hsnapshot, hawaiting, -⟩ := h.conn
  have hpolarity : c.loop.isActiveLow = b.loop.isActiveLow := by
    funext gpio
    rw [isActiveLow_eq, isActiveLow_eq, h.config, h.activeLow]
  have hknows' : Knows r c := fun gpio => by
    rw [h.known, hpolarity]
    exact hknows gpio
  refine wp_mono (wp_absorb_next h.clocked.1 h.clocked.2 hknows' hnext) ?_
  rintro (_ | _) c' h'
  · exact h'
  · obtain ⟨⟨hloop, htold⟩, hafter⟩ := h'
    refine ⟨by rw [hloop, h.config], by rw [hloop, h.activeLow],
      ⟨conn, by rw [hloop, hconn], hsnapshot, hawaiting⟩, hafter, ?_⟩
    rw [htold, h.changes, WatchLoop.news, WatchLoop.news]
    congr 2
    funext event
    rw [WatchLoop.change, WatchLoop.change, hpolarity]

/-- A plain report that is read on such a connection is absorbed. -/
theorem wp_status_plain (at' : Instant) (missed : ℕ) (hlistens : Listens b) (hplain : r'.plain = true)
    {Q : Except Stop Unit → Ctx ω → Prop} (habsorb : ∀ c, Absorbing b c → (absorb r').wp Q c) :
    (status r' at' missed).wp Q b := by
  obtain ⟨conn, hconn, hsnapshot, hawaiting⟩ := hlistens
  simp only [StatusReport.plain, Bool.and_eq_true, Bool.not_eq_true'] at hplain
  obtain ⟨hrequest, hchanged⟩ := hplain
  have hstale : conn.isStale r'.seq = false := by rw [Connection.isStale, hsnapshot]
  unfold status
  rw [loop_bind, connection_bind hconn]
  dsimp only
  rw [setConn_bind, wp_bind, wp_only]
  refine ⟨fun hc => by simp [hchanged] at hc, fun _ => ?_⟩
  rw [post_ok, emit_bind, wp_bind, wp_only]
  have hclock := DeviceClock.cur_add conn.clock at' r'.timestampUs
  have hquiet : ∀ (c : Ctx ω) (k : WatchLoop → Watch ω Unit), Absorbing b c →
      (∀ l conn', l.conn = some conn' → conn'.awaitingConfig = false → k l = absorb r') →
      (only (contains r'.reason Reason.configChanged) configChanged >>= fun _ => loop >>= k).wp Q c := by
    intro c k h hk
    rw [wp_bind, wp_only]
    refine ⟨fun hc => by simp [hchanged] at hc, fun _ => ?_⟩
    obtain ⟨conn', hconn', -, hawaiting', -⟩ := h.conn
    rw [post_ok, loop_bind, hk _ conn' hconn' hawaiting']
    exact habsorb c h
  refine ⟨fun _ => ?_, fun _ => ?_⟩
  · rw [wp_emit, post_ok]
    refine hquiet _ _ ?_ fun l conn' hl ha => by simp [hl, hrequest, hstale, ha]
    refine ⟨rfl, rfl, rfl, ?_, ⟨_, rfl, by simp [hsnapshot], by simp [hawaiting], hclock⟩, fun h => ?_⟩
    · rw [changes_push, changes_push]
      simp [Event.change]
    · exact stable_faithful.push rfl (stable_faithful.push rfl (stable_faithful.view b rfl h))
  · refine hquiet _ _ ?_ fun l conn' hl ha => by simp [hl, hrequest, hstale, ha]
    refine ⟨rfl, rfl, rfl, ?_, ⟨_, rfl, by simp [hsnapshot], by simp [hawaiting], hclock⟩, fun h => ?_⟩
    · rw [changes_push]
      simp [Event.change]
    · exact stable_faithful.push rfl (stable_faithful.view b rfl h)

/-- A read that brings a report. -/
theorem wp_received_plain {data : List U8} (at' : Instant) (hdata : Tally.reportIn data = some r')
    (hlistens : Listens b) (hplain : r'.plain = true) {Q : Except Stop Unit → Ctx ω → Prop}
    (habsorb : ∀ c, Absorbing b c → (absorb r').wp Q c) : (received data at').wp Q b := by
  rw [Tally.reportIn] at hdata
  split_ifs at hdata with hshort
  obtain ⟨conn, hconn, hsnapshot, hawaiting⟩ := hlistens
  unfold received
  rw [if_neg hshort]
  cases hdecode : decodeStatus ((data.take reportLen).tail) with
  | error e =>
    rw [hdecode] at hdata
    cases hdata
  | ok report =>
    rw [hdecode] at hdata
    obtain rfl := Option.some.inj hdata
    dsimp only
    rw [connection_bind hconn, setConn_bind]
    refine wp_status_plain at' _ ⟨{ conn with lastSeq := some report.seq }, rfl, hsnapshot, hawaiting⟩ hplain
      fun c h => habsorb c ?_
    exact ⟨h.config, h.activeLow, h.known, h.changes, h.conn, fun hb =>
      h.faithful (stable_faithful.view b rfl hb)⟩

/-- Reads from the device, each with its time. -/
def hear (heard : List (List U8 × Instant)) : Watch ω Unit := each (fun x => received x.1 x.2) heard

/-- Reports that go on from the one the loop knows are told as their events. -/
theorem wp_hear :
    ∀ (reports : List StatusReport) {heard : List (List U8 × Instant)} {r : StatusReport} {b : Ctx ω},
      heard.map (fun x => Tally.reportIn x.1) = reports.map some → Listens b → Knows r b →
      (∀ report ∈ reports, report.plain = true) → (r :: reports).IsChain StatusReport.GoesOn →
      (hear heard).wp (post (fun _ => Heeded b (reports.getLastD r) (b.loop.story r reports))
        fun _ _ => False) b
  | [], heard, r, b, hdata, hlistens, hknows, _, _ => by
    obtain rfl := List.map_eq_nil_iff.mp hdata
    exact ⟨rfl, rfl, hlistens, hknows, (List.append_nil _).symm⟩
  | r' :: reports, heard, r, b, hdata, hlistens, hknows, hplain, hchain => by
    obtain ⟨x, heard, rfl, hx, hheard⟩ := List.map_eq_cons_iff.mp hdata
    obtain ⟨hplain', hplain⟩ := List.forall_mem_cons.mp hplain
    obtain ⟨hnext, hchain⟩ := List.isChain_cons_cons.mp hchain
    refine wp_then (wp_received_plain x.2 hx hlistens hplain' fun _ => wp_heeded hknows hnext) ?_
    rintro _ c h
    refine wp_mono (wp_hear reports hheard h.listens h.knows hplain hchain) ?_
    rintro (_ | _) c' h'
    · exact h'
    · refine ⟨h'.config.trans h.config, h'.activeLow.trans h.activeLow, h'.listens, ?_, ?_⟩
      · rw [List.getLastD_cons]
        exact h'.knows
      rw [h'.changes, h.changes, h.story, List.append_assoc]
      rfl

end Watch

end Hidpin.Host
