import Hidpin.Host.View
import Hidpin.Lib.Replay

/-! The stream of ON/OFF notifications. Every notification gives ON/OFF to pins; replaying them gives
    what the loop knows, and each absorbed report leaves the loop knowing exactly its monitored pins. -/

namespace Hidpin.Host
open Lib

variable {ω : Type}

/-- What the notifications so far say about a pin. -/
def told (emitted : List Emitted) (gpio : U8) : Option Bool :=
  replay Prod.fst (some ∘ Prod.snd) (emitted.flatMap fun e => e.event.onOff) gpio none

/-- Whether LOW means ON under a pin configuration. -/
def polarity (activeLow : U8 → Option Bool) (config : PinConfig) (gpio : U8) : Bool :=
  match activeLow gpio with
  | some activeLow => activeLow
  | none => decide ((config.get gpio).mode = .pullUp)

theorem isActiveLow_eq (l : WatchLoop) (gpio : U8) :
    l.isActiveLow gpio = polarity l.activeLow l.config gpio := rfl

/-- Every change is the opposite of what was told about its pin before, and its level is the one the
    polarity gives. -/
def Opposite (activeLow : U8 → Option Bool) (emitted : List Emitted) : Prop :=
  ∀ x ∈ withPast emitted, ∀ change, x.2.event = .onOffChange change →
    told x.1 change.gpio = some (!change.on) ∧
      change.on = (change.level != polarity activeLow x.2.config change.gpio)

/-- The map of an InitialOnOff. -/
def Event.initial : Event → Option (List (U8 × Bool))
  | .initialOnOff on => some on
  | _ => none

/-- The monitored pins of a report with the ON/OFF its levels give. -/
def Absorbed.fresh (a : Absorbed ω) : List (U8 × Bool) :=
  (a.after.onOff a.report).filter fun entry => (a.before.known entry.1).isNone

/-- What absorbing a report leaves: the known pins are the monitored ones with the values of the report,
    and the InitialOnOff names those that were not known before it. -/
structure Absorbed.Exact (a : Absorbed ω) : Prop where
  known : ∀ gpio, a.after.known gpio =
    if gpio.toNat < gpioCount ∧ a.report.isMonitored gpio = true then
      some (a.report.level gpio != a.after.isActiveLow gpio) else none
  initial : a.events.filterMap Event.initial = if a.fresh = [] then [] else [a.fresh]

/-- The view of the pins and the stream agree. -/
structure Faithful (c : Ctx ω) : Prop where
  told : ∀ gpio on, c.loop.known gpio = some on → told c.emitted gpio = some on
  known_lt : ∀ gpio, (c.loop.known gpio).isSome = true → gpio.toNat < gpioCount
  opposite : Opposite c.loop.activeLow c.emitted
  absorbed : ∀ a ∈ c.absorbed, a.Exact

/-! ### One notification -/

theorem told_concat (emitted : List Emitted) (e : Emitted) (gpio : U8) :
    told (emitted ++ [e]) gpio =
      replay Prod.fst (some ∘ Prod.snd) e.event.onOff gpio (told emitted gpio) := by
  simp [told, replay_append]

theorem told_change (emitted : List Emitted) (change : OnOffChange) (config : PinConfig) (gpio : U8) :
    told (emitted ++ [⟨.onOffChange change, config⟩]) gpio =
      if change.gpio = gpio then some change.on else told emitted gpio := by
  rw [told_concat]
  rfl

theorem told_other {emitted : List Emitted} {e : Emitted} (h : e.event.onOff = []) (gpio : U8) :
    told (emitted ++ [e]) gpio = told emitted gpio := by
  rw [told_concat, h]
  rfl

theorem told_initial (emitted : List Emitted) (gpios : List U8) (value : U8 → Bool) (config : PinConfig)
    (gpio : U8) :
    told (emitted ++ [⟨.initialOnOff (gpios.map fun gpio => (gpio, value gpio)), config⟩]) gpio =
      if gpio ∈ gpios then some (value gpio) else told emitted gpio := by
  rw [told_concat, Event.onOff, replay_map]
  exact replay_id (fun gpio => some (value gpio)) gpios gpio _

variable {low : U8 → Option Bool} {emitted : List Emitted}

theorem Opposite.other (h : Opposite low emitted) {e : Emitted}
    (he : ∀ change, e.event ≠ .onOffChange change) : Opposite low (emitted ++ [e]) := by
  intro x hx change hchange
  rw [withPast_concat, List.mem_append, List.mem_singleton] at hx
  rcases hx with hx | rfl
  · exact h x hx change hchange
  · exact absurd hchange (he change)

theorem Opposite.change (h : Opposite low emitted) {change : OnOffChange} {config : PinConfig}
    (htold : told emitted change.gpio = some (!change.on))
    (hlevel : change.on = (change.level != polarity low config change.gpio)) :
    Opposite low (emitted ++ [⟨.onOffChange change, config⟩]) := by
  intro x hx other hother
  rw [withPast_concat, List.mem_append, List.mem_singleton] at hx
  rcases hx with hx | rfl
  · exact h x hx other hother
  · cases hother
    exact ⟨htold, hlevel⟩

theorem onOff_ne_change {event : Event} (h : event.onOff = []) (change : OnOffChange) :
    event ≠ .onOffChange change := by
  rintro rfl
  simp [Event.onOff] at h

/-! ### Absorbing -/

/-- A context on the way through `absorb`, started in `b`: only changes were told. -/
structure Within (b c : Ctx ω) : Prop where
  loop : c.loop = { b.loop with known := c.loop.known, pending := c.loop.pending }
  absorbed : c.absorbed = b.absorbed
  opposite : Opposite b.loop.activeLow c.emitted
  events : ∃ new, c.emitted = b.emitted ++ new ∧ ∀ e ∈ new, e.event.initial = none

namespace Within
variable {b c : Ctx ω}

theorem config (h : Within b c) : c.loop.config = b.loop.config := by rw [h.loop]

theorem activeLow (h : Within b c) : c.loop.activeLow = b.loop.activeLow := by rw [h.loop]

theorem conn (h : Within b c) : c.loop.conn = b.loop.conn := by rw [h.loop]

theorem isActiveLow (h : Within b c) (gpio : U8) : c.loop.isActiveLow gpio = b.loop.isActiveLow gpio := by
  rw [isActiveLow_eq, isActiveLow_eq, h.config, h.activeLow]

theorem world (h : Within b c) (w : ω) : Within b { c with world := w } :=
  ⟨h.loop, h.absorbed, h.opposite, h.events⟩

theorem setKnown (h : Within b c) (known : U8 → Option Bool) :
    Within b { c with loop := { c.loop with known } } :=
  ⟨by rw [h.loop], h.absorbed, h.opposite, h.events⟩

theorem change (h : Within b c) {change : OnOffChange}
    (htold : told c.emitted change.gpio = some (!change.on))
    (hlevel : change.on = (change.level != b.loop.isActiveLow change.gpio)) :
    Within b (c.push (.onOffChange change)) := by
  obtain ⟨new, hnew, hnone⟩ := h.events
  have hlow : change.on = (change.level != polarity b.loop.activeLow c.loop.config change.gpio) := by
    rw [h.config]
    exact hlevel
  refine ⟨?_, h.absorbed, h.opposite.change htold hlow, new ++ [⟨.onOffChange change, c.loop.config⟩],
    ?_, ?_⟩
  · rw [Ctx.push, h.loop]
  · rw [Ctx.push, hnew, List.append_assoc]
  · intro e he
    rw [List.mem_append, List.mem_singleton] at he
    rcases he with he | rfl
    · exact hnone e he
    · rfl

end Within

/-- The first loop of `absorb`: the same pins are known, and what is known was told. -/
structure Following (b c : Ctx ω) : Prop extends Within b c where
  domain : ∀ gpio, (c.loop.known gpio).isSome = (b.loop.known gpio).isSome
  told : ∀ gpio on, c.loop.known gpio = some on → told c.emitted gpio = some on

namespace Watch
open Prog
variable {b c : Ctx ω}

/-- A lost opposite change is made up for, so what was told is the opposite of the event. -/
theorem wp_opposite {gpio : U8} {was on level : Bool} (h : Within b c)
    (htold : told c.emitted gpio = some was) (hon : on = (level != b.loop.isActiveLow gpio)) :
    (only (on = was) (emitInferred gpio (!on) (!level))).wp (post (fun _ c' => Within b c' ∧
      c'.loop.known = c.loop.known ∧ told c'.emitted gpio = some (!on) ∧
      ∀ other, other ≠ gpio → told c'.emitted other = told c.emitted other) fun _ _ => False) c := by
  rw [wp_only]
  constructor
  · intro heq
    have hlevel : (!on) = ((!level) != b.loop.isActiveLow gpio) := by
      rw [hon]
      cases level <;> cases b.loop.isActiveLow gpio <;> rfl
    have hnew : Within b (c.push (.onOffChange ⟨gpio, !on, !level, none, none, true⟩)) :=
      h.change (by simpa [heq] using htold) hlevel
    refine ⟨hnew, rfl, ?_, fun other hother => ?_⟩
    · exact (told_change _ _ _ _).trans (if_pos rfl)
    · exact (told_change _ _ _ _).trans (if_neg (Ne.symm hother))
  · intro hne
    refine ⟨h, rfl, ?_, fun _ _ => rfl⟩
    rw [htold]
    cases on <;> cases was <;> simp_all

variable [World ω]

/-- With a sample in the clock, reading it changes the world only. -/
theorem wp_clockAt (hconn : c.loop.conn.isSome = true) (hclock : Clocked c) (startUs : Option U64) :
    (clockAt? startUs).wp (post (fun _ c' => ∃ w, c' = { c with world := w }) fun _ _ => False) c := by
  cases startUs with
  | none => exact ⟨c.world, rfl⟩
  | some startUs =>
    obtain ⟨conn, hsome⟩ := Option.isSome_iff_exists.mp hconn
    simp only [clockAt?, clockAt, connection, systemTime, wp_bind, wp_loop, wp_instant, wp_call,
      post_ok, hsome, wp_pure]
    obtain ⟨time, htime⟩ := Option.isSome_iff_exists.mp (DeviceClock.wallAt_isSome (hclock conn hsome)
      startUs (World.instant c.world).1 (World.systemTime (World.instant c.world).2).1)
    rw [htime]
    exact ⟨_, rfl⟩

theorem wp_absorbEvent (report : StatusReport) (event : EdgeEvent) (hconn : b.loop.conn.isSome = true)
    (hclock : Clocked b) (hlt : ∀ gpio, (b.loop.known gpio).isSome = true → gpio.toNat < gpioCount)
    (h : Following b c) :
    (absorbEvent report event).wp (post (fun _ => Following b) fun _ _ => False) c := by
  unfold absorbEvent
  rw [wp_bind, wp_loop, post_ok]
  rcases hknown : c.loop.known event.gpio with _ | was
  · exact h
  · have hgpio : event.gpio.toNat < gpioCount := hlt _ (by rw [← h.domain, hknown]; rfl)
    refine (indexed_bind (by simp [WatchLoop.polarityInRange, hgpio]) _).mpr ?_
    dsimp only
    rw [h.isActiveLow]
    generalize hon : (event.level != b.loop.isActiveLow event.gpio) = on
    refine wp_then (wp_opposite h.toWithin (h.told _ _ hknown) hon.symm) ?_
    rintro _ c1 ⟨hwithin, hsame, htold, hother⟩
    have hconn1 : c1.loop.conn.isSome = true := by rw [hwithin.conn]; exact hconn
    have hclock1 : Clocked c1 := fun conn hc => hclock conn (by rw [← hwithin.conn]; exact hc)
    refine wp_then (wp_clockAt hconn1 hclock1 _) ?_
    rintro time _ ⟨w, rfl⟩
    simp only [wp_bind, wp_emit, wp_setLoop, post_ok]
    have hpush : Within b (({ c1 with world := w } : Ctx ω).push
        (.onOffChange ⟨event.gpio, on, event.level, time, event.startUs report.timestampUs, false⟩)) :=
      (hwithin.world w).change htold hon.symm
    refine ⟨hpush.setKnown _, fun gpio => ?_, fun gpio on' hon' => ?_⟩
    · have hdomain := h.domain gpio
      by_cases hg : gpio = event.gpio
      · rw [hg, hknown] at hdomain
        simpa [hg] using hdomain
      · simpa [hg, hsame, Ctx.push] using hdomain
    · refine (told_change _ _ _ _).trans ?_
      by_cases hg : gpio = event.gpio
      · rw [if_pos hg.symm]
        simpa [hg] using hon'
      · rw [if_neg (Ne.symm hg)]
        refine (hother gpio hg).trans (h.told gpio on' ?_)
        simpa [hg, hsame, Ctx.push] using hon'

omit [World ω] in
/-- The second loop of `absorb`, at one pin. -/
theorem wp_absorbLevel (report : StatusReport) {gpio : U8} {on : Bool} (h : Within b c)
    (hon : on = (report.level gpio != b.loop.isActiveLow gpio))
    (htold : ∀ was, c.loop.known gpio = some was → told c.emitted gpio = some was) :
    (absorbLevel report gpio).wp (post (fun new c' =>
      new = (if (c.loop.known gpio).isNone then [(gpio, on)] else []) ∧ Within b c' ∧
      c'.loop.known = Function.update c.loop.known gpio (some on) ∧
      ∀ other, told c'.emitted other =
        if other = gpio ∧ (c.loop.known gpio).isSome = true then some on else told c.emitted other)
      fun _ _ => False) c := by
  unfold absorbLevel
  rw [wp_bind, wp_loop, post_ok]
  rw [h.isActiveLow, ← hon]
  rcases hknown : c.loop.known gpio with _ | was
  · simp only [wp_bind, wp_setLoop, wp_pure, post_ok]
    exact ⟨by simp, h.setKnown _, trivial, by simp⟩
  · dsimp only
    rw [wp_bind, wp_only]
    constructor
    · intro hne
      have hwas : told c.emitted gpio = some (!on) := by
        rw [htold was hknown]
        cases on <;> cases was <;> simp_all
      have hpush : Within b (c.push (.onOffChange ⟨gpio, on, report.level gpio, none, none, true⟩)) :=
        h.change hwas hon
      simp only [emitInferred, wp_emit, wp_bind, wp_setLoop, wp_pure, post_ok]
      refine ⟨by simp, hpush.setKnown _, rfl, fun other => ?_⟩
      refine (told_change _ _ _ _).trans ?_
      simp [eq_comm]
    · intro heq
      simp only [wp_bind, wp_setLoop, wp_pure, post_ok]
      refine ⟨by simp, h.setKnown _, trivial, fun other => ?_⟩
      by_cases hother : other = gpio
      · rw [hother, htold was hknown]
        simpa using heq
      · simp [hother]

omit [World ω] in
/-- The second loop of `absorb`: the pins take the values of the report, and those that were not known
    are returned. -/
theorem wp_absorbLevels (report : StatusReport) {value : U8 → Bool}
    (hvalue : ∀ gpio, value gpio = (report.level gpio != b.loop.isActiveLow gpio)) :
    ∀ (gpios : List U8) {c : Ctx ω}, Within b c → gpios.Nodup →
      (∀ gpio ∈ gpios, ∀ was, c.loop.known gpio = some was → told c.emitted gpio = some was) →
      (absorbLevels report gpios).wp (post (fun learned c' =>
        learned = ((gpios.filter fun gpio => (c.loop.known gpio).isNone).map
          fun gpio => (gpio, value gpio)) ∧
        Within b c' ∧
        (∀ gpio, c'.loop.known gpio = if gpio ∈ gpios then some (value gpio) else c.loop.known gpio) ∧
        ∀ gpio, told c'.emitted gpio = if gpio ∈ gpios ∧ (c.loop.known gpio).isSome = true then
          some (value gpio) else told c.emitted gpio) fun _ _ => False) c
  | [], c, h, _, _ => by simpa [absorbLevels] using h
  | gpio :: gpios, c, h, hnodup, htold => by
    obtain ⟨hfresh, hnodup⟩ := List.nodup_cons.mp hnodup
    refine wp_then (wp_absorbLevel report h (hvalue gpio) (htold gpio (by simp))) ?_
    rintro new c1 ⟨rfl, hwithin, hknown1, htold1⟩
    have hne : ∀ other ∈ gpios, other ≠ gpio := fun other hmem heq => hfresh (heq ▸ hmem)
    have hsame : ∀ other ∈ gpios, c1.loop.known other = c.loop.known other := fun other hmem => by
      rw [hknown1, Function.update_of_ne (hne other hmem)]
    refine wp_then (wp_absorbLevels report hvalue gpios hwithin hnodup fun other hmem was hwas => ?_) ?_
    · rw [htold1, if_neg (fun hc => hne other hmem hc.1)]
      exact htold other (by simp [hmem]) was (by rw [← hsame other hmem]; exact hwas)
    rintro learned c2 ⟨rfl, hwithin2, hknown2, htold2⟩
    rw [wp_pure, post_ok]
    refine ⟨?_, hwithin2, fun other => ?_, fun other => ?_⟩
    · have hfilter : (gpios.filter fun g => (c1.loop.known g).isNone) =
          gpios.filter fun g => (c.loop.known g).isNone :=
        List.filter_congr fun other hmem => by rw [hsame other hmem]
      rw [hfilter, List.filter_cons]
      cases (c.loop.known gpio).isNone <;> simp
    · rw [hknown2, hknown1]
      by_cases hother : other = gpio
      · subst hother; simp [hfresh]
      · simp [hother]
    · rw [htold2, htold1]
      by_cases hother : other = gpio
      · subst hother; simp [hfresh]
      · by_cases hmem : other ∈ gpios
        · simp [hother, hmem, hsame other hmem]
        · simp [hother, hmem]

end Watch

/-- The context at the end of `absorb`, before the report is recorded. -/
structure Settled (report : StatusReport) (b c : Ctx ω) : Prop where
  config : c.loop.config = b.loop.config
  activeLow : c.loop.activeLow = b.loop.activeLow
  absorbed : c.absorbed = b.absorbed
  opposite : Opposite b.loop.activeLow c.emitted
  known : ∀ gpio, c.loop.known gpio =
    if gpio.toNat < gpioCount ∧ report.isMonitored gpio = true then
      some (report.level gpio != b.loop.isActiveLow gpio) else none
  told : ∀ gpio on, c.loop.known gpio = some on → told c.emitted gpio = some on
  initial : ∀ fresh, fresh = (b.loop.onOff report).filter (fun entry => (b.loop.known entry.1).isNone) →
    ∃ new, c.emitted = b.emitted ++ new ∧
      (new.map Emitted.event).filterMap Event.initial = if fresh = [] then [] else [fresh]

theorem Settled.faithful {report : StatusReport} {b c : Ctx ω} (h : Settled report b c) (hb : Faithful b) :
    Faithful { c with
      absorbed := c.absorbed ++
        [⟨report, b.loop, b.world, (c.emitted.drop b.emitted.length).map Emitted.event, c.loop⟩] } := by
  have hlow : ∀ gpio, c.loop.isActiveLow gpio = b.loop.isActiveLow gpio := fun gpio => by
    rw [isActiveLow_eq, isActiveLow_eq, h.config, h.activeLow]
  refine ⟨h.told, fun gpio hgpio => ?_, ?_, ?_⟩
  · rw [h.known] at hgpio
    by_contra hge
    rw [if_neg fun hc => hge hc.1] at hgpio
    simp at hgpio
  · rw [h.activeLow]
    exact h.opposite
  · intro a ha
    rw [List.mem_append, List.mem_singleton, h.absorbed] at ha
    rcases ha with ha | rfl
    · exact hb.absorbed a ha
    · refine ⟨fun gpio => ?_, ?_⟩
      · rw [h.known, hlow]
      · have hfresh : (b.loop.onOff report).filter (fun entry => (b.loop.known entry.1).isNone) =
            (c.loop.onOff report).filter (fun entry => (b.loop.known entry.1).isNone) := by
          simp only [WatchLoop.onOff, hlow]
        obtain ⟨new, hnew, hinitial⟩ := h.initial _ hfresh.symm
        simp only [Absorbed.fresh, hnew, List.drop_left]
        exact hinitial

namespace Watch
open Prog
variable [World ω] {b c : Ctx ω}

/-- Absorbing a report keeps the view and the stream in agreement. -/
theorem wp_absorb (report : StatusReport) (hconn : b.loop.conn.isSome = true) (hclock : Clocked b)
    (h : Faithful b) : (absorb report).wp (post (fun _ => Faithful) fun _ _ => False) b := by
  have hstart : Following b b :=
    { loop := rfl, absorbed := rfl, opposite := h.opposite, events := ⟨[], by simp, by simp⟩
      domain := fun _ => rfl, told := h.told }
  unfold absorb
  rw [wp_bind, wp_gets, post_ok]
  refine wp_then (wp_each (I := fun _ c => Following b c)
    (fun event _ c hc => wp_absorbEvent report event hconn hclock h.known_lt hc) report.events hstart) ?_
  intro _ c1 h1
  generalize hvalue : (fun gpio => report.level gpio != b.loop.isActiveLow gpio) = value
  have hvalue' : ∀ gpio, value gpio = (report.level gpio != b.loop.isActiveLow gpio) := by
    rw [← hvalue]; exact fun _ => rfl
  refine wp_then (wp_absorbLevels report hvalue' _ h1.toWithin (nodup_maskToGpios _)
    fun gpio _ was hwas => h1.told gpio was hwas) ?_
  rintro learned c2 ⟨hlearned, h2, hknown2, htold2⟩
  have hunknown : ∀ gpio, (c1.loop.known gpio).isNone = (b.loop.known gpio).isNone := fun gpio => by
    rw [← Option.not_isSome, ← Option.not_isSome, h1.domain]
  have hmem : ∀ gpio, gpio ∈ maskToGpios report.monitored ↔
      gpio.toNat < gpioCount ∧ report.isMonitored gpio = true := fun _ => mem_maskToGpios
  have hknown3 : ∀ gpio, (c2.loop.retain report.isMonitored).known gpio =
      if gpio.toNat < gpioCount ∧ report.isMonitored gpio = true then some (value gpio) else none := by
    intro gpio
    have hlt := h.known_lt gpio
    have hdomain := h1.domain gpio
    simp only [WatchLoop.retain, hknown2, hmem]
    by_cases hmon : report.isMonitored gpio = true <;> by_cases hgpio : gpio.toNat < gpioCount <;>
      simp only [hmon, hgpio, if_true, if_false, and_true, and_false, and_self, Bool.false_eq_true]
    rw [← Option.not_isSome_iff_eq_none, hdomain]
    exact fun hc => hgpio (hlt hc)
  have hfresh : (b.loop.onOff report).filter (fun entry => (b.loop.known entry.1).isNone) = learned := by
    simp only [hunknown] at hlearned
    rw [hlearned, WatchLoop.onOff, List.filter_map]
    exact List.map_congr_left fun gpio _ => by rw [hvalue']
  have hnone : learned = [] → ∀ gpio ∈ maskToGpios report.monitored, (c1.loop.known gpio).isSome = true := by
    intro hnil gpio hgpio
    rw [hlearned, List.map_eq_nil_iff, List.filter_eq_nil_iff] at hnil
    simpa [Option.isSome_iff_ne_none] using hnil gpio hgpio
  have hon3 : ∀ {gpio on}, (c2.loop.retain report.isMonitored).known gpio = some on →
      gpio ∈ maskToGpios report.monitored ∧ value gpio = on := by
    intro gpio on hon
    rw [hknown3] at hon
    split at hon
    · next hgpio => exact ⟨(hmem gpio).mpr hgpio, Option.some.inj hon⟩
    · cases hon
  obtain ⟨new, hnew, hinitial⟩ := h2.events
  have hinitial : (new.map Emitted.event).filterMap Event.initial = [] := by
    rw [List.filterMap_map, List.filterMap_eq_nil_iff]
    exact hinitial
  simp only [wp_bind, wp_setLoop, wp_only, wp_emit, post_ok, wp_update, id_eq]
  constructor
  · intro hne
    refine Settled.faithful ⟨h2.config, h2.activeLow, h2.absorbed, h2.opposite.other (by simp),
      fun gpio => ?_,
      fun gpio on hon => ?_, fun fresh hf => ⟨new ++ [⟨.initialOnOff learned, c2.loop.config⟩], ?_, ?_⟩⟩ h
    · rw [← hvalue']
      exact hknown3 gpio
    · obtain ⟨hgpio, rfl⟩ := hon3 hon
      refine (hlearned ▸ told_initial c2.emitted _ value c2.loop.config gpio).trans ?_
      cases hwas : (c1.loop.known gpio).isNone
      · have hsome : (c1.loop.known gpio).isSome = true := by
          rw [← Option.not_isNone, hwas]
          rfl
        simp only [htold2, hgpio, hsome, and_self, if_true, ite_self]
      · rw [if_pos (List.mem_filter.mpr ⟨hgpio, hwas⟩)]
    · rw [Ctx.push, hnew, List.append_assoc]
      rfl
    · rw [hf, hfresh, List.map_append, List.filterMap_append, hinitial, if_neg hne]
      rfl
  · intro hnil
    rw [not_not] at hnil
    refine Settled.faithful (c := { c2 with loop := c2.loop.retain report.isMonitored })
      ⟨h2.config, h2.activeLow, h2.absorbed, h2.opposite, fun gpio => ?_, fun gpio on hon => ?_,
        fun fresh hf => ⟨new, hnew, ?_⟩⟩ h
    · rw [← hvalue']
      exact hknown3 gpio
    · obtain ⟨hgpio, rfl⟩ := hon3 hon
      simp only [htold2, hgpio, hnone hnil gpio hgpio, and_self, if_true]
    · rw [hf, hfresh, hinitial, if_pos hnil]

/-- What the view and the stream agree on survives everything the watch loop does. -/
theorem stable_faithful : Stable (Faithful (ω := ω)) where
  view c c' hview h := by
    simp only [Ctx.view, View.mk.injEq] at hview
    obtain ⟨hknown, -, hlow, hemitted, habsorbed⟩ := hview
    exact ⟨by rw [hknown, hemitted]; exact h.told, by rw [hknown]; exact h.known_lt,
      by rw [hlow, hemitted]; exact h.opposite, by rw [habsorbed]; exact h.absorbed⟩
  push he h :=
    ⟨fun gpio on hon => (told_other he gpio).trans (h.told gpio on hon), h.known_lt,
      h.opposite.other (onOff_ne_change he), h.absorbed⟩
  setConfig config h := by
    refine ⟨fun gpio on hon => h.told gpio on ?_, fun gpio hgpio => h.known_lt gpio ?_,
      h.opposite, h.absorbed⟩
    · simp only [WatchLoop.setConfig, WatchLoop.retain] at hon
      split at hon
      · exact hon
      · cases hon
    · simp only [WatchLoop.setConfig, WatchLoop.retain] at hgpio
      split at hgpio
      · exact hgpio
      · cases hgpio
  absorb report c hconn hclock h := by
    have hwp := wp_absorb report hconn hclock h
    unfold wp at hwp
    rcases hexec : exec (absorb report) c with ⟨e | a, c'⟩ <;> rw [hexec] at hwp
    · exact hwp.elim
    · exact hwp

end Watch

/-- The stream of notifications is a faithful view of the pins in every run. -/
theorem Watcher.notifications_faithful [World ω] (o : WatchOptions) (w : ω) (inputs : List Input) :
    let c := (Lib.run step (start o w) inputs).ctx
    (∀ gpio on, c.loop.known gpio = some on → told c.emitted gpio = some on) ∧
    (∀ x ∈ withPast c.emitted, ∀ change, x.2.event = .onOffChange change →
      told x.1 change.gpio = some (!change.on) ∧
      change.on = (change.level != polarity c.loop.activeLow x.2.config change.gpio)) ∧
    ∀ a ∈ c.absorbed,
      (∀ gpio, a.after.known gpio = if gpio.toNat < gpioCount ∧ a.report.isMonitored gpio = true then
        some (a.report.level gpio != a.after.isActiveLow gpio) else none) ∧
      a.events.filterMap Event.initial = if a.fresh = [] then [] else [a.fresh] := by
  have h : Faithful (Lib.run step (start o w) inputs).ctx := by
    refine stable_run Watch.stable_faithful ⟨?_, ?_, ?_, ?_⟩ inputs
    · intro gpio on hon
      cases hon
    · intro gpio hgpio
      cases hgpio
    · intro x hx
      cases hx
    · intro a ha
      cases ha
  exact ⟨h.told, h.opposite, fun a ha => ⟨(h.absorbed a ha).known, (h.absorbed a ha).initial⟩⟩

end Hidpin.Host
