import Hidpin.Host.Noting
import Hidpin.System.Since
import Hidpin.System.Sequel

/-! A watcher without a target on a connection that lasts. It knows the levels of the report that it read
    last, and has told the events of those it read since its reference. Every read keeps this: a report from
    before the reference is stale or shows what is known, and the one after the last goes on from it. -/

namespace Hidpin.System
open Firmware (Gpio Status modeIsInput hasBit)
open Firmware.Device (Lossless Since)
open Host hiding Gpio gpioCount Device
open Host.Watch
open Lib Lib.Prog

variable {ω : Type} {k m : ℕ} {ref : Status} {config : Firmware.PinConfig} {base : List OnOffChange}

/-! ### Reports from before the reference -/

namespace Cable
variable {w w' : Cable ω} {conn : Connection} {seq : Option U16} {coherent : Prop}

/-- `r` shows what `s` does, and tells of no event. -/
def Repeats (s r : Status) : Prop :=
  r.events = [] ∧ r.monitored = s.monitored ∧
    ∀ n, hasBit s.monitored n = true → hasBit r.levels n = hasBit s.levels n

/-- The reports before number `m` do not count: they are stale to the connection, or show what is known. -/
structure Marked (k m : ℕ) (ref : Status) (seq : Option U16) (w : Cable ω) : Prop where
  reference : ∀ s, seq = some s → s = BitVec.ofNat 16 (m - 1) ∧ 1 ≤ m ∧ w.next ≤ m
  before : w.device.Lossless k → (seq = some (BitVec.ofNat 16 (m - 1)) ∧ m ≤ k + 0x8001) ∨
    ∀ i r, w.next ≤ i → i < m → w.device.sent[i]? = some r → Repeats ref r.status

theorem Marked.moved (h : Marked k m ref seq w) (hm : w.Moved w')
    (hs : Since coherent k m ref config w.device) : Marked k m ref seq w' := by
  obtain ⟨-, hlossless, new, hnew⟩ := hm.since hs
  refine ⟨fun s hseq => ?_, fun hl => ?_⟩
  · rw [hm.next_eq]
    exact h.reference s hseq
  · refine (h.before (hlossless hl)).imp_right fun hbefore i r hi him hr => ?_
    rw [hm.next_eq] at hi
    rw [hnew, List.getElem?_append_left (him.trans_le hs.le_length)] at hr
    exact hbefore i r hi him hr

/-- Only a report from before the mark is stale. -/
theorem Marked.lt_of_stale (h : w.Marked k m ref conn.snapshotSeq)
    (hstale : conn.isStale (BitVec.ofNat 16 w.next) = true) : w.next < m := by
  unfold Connection.isStale at hstale
  cases hseq : conn.snapshotSeq with
  | none =>
    rw [hseq] at hstale
    cases hstale
  | some s =>
    obtain ⟨rfl, hm, hle⟩ := h.reference s hseq
    rw [hseq] at hstale
    refine lt_of_le_of_ne hle fun heq => ?_
    rw [heq] at hstale
    have hnext : BitVec.ofNat 16 m - BitVec.ofNat 16 (m - 1) = 1 := by bv_omega
    dsimp only at hstale
    rw [hnext] at hstale
    exact absurd hstale (by decide)

/-- A report from before the mark that is not stale shows what is known. -/
theorem Marked.repeats (h : w.Marked k m ref conn.snapshotSeq) (hk : k ≤ w.next)
    (hfresh : conn.isStale (BitVec.ofNat 16 w.next) = false) (hl : w.device.Lossless k) {i : ℕ}
    {r : Firmware.Sent} (hi : w.next ≤ i) (him : i < m) (hr : w.device.sent[i]? = some r) :
    Repeats ref r.status := by
  rcases h.before hl with ⟨hseq, hm⟩ | hbefore
  · rw [Connection.isStale, hseq] at hfresh
    refine absurd ?_ (of_decide_eq_false hfresh)
    bv_omega
  · exact hbefore i r hi him hr

theorem Marked.skip (h : w.Marked k m ref seq) (hdevice : w'.device = w.device)
    (hnext : w'.next = w.next + 1) (hlt : w.next < m) : w'.Marked k m ref seq where
  reference s hs := by
    obtain ⟨heq, hm, -⟩ := h.reference s hs
    exact ⟨heq, hm, hnext ▸ hlt⟩
  before hl := by
    rw [hdevice] at hl ⊢
    exact (h.before hl).imp_right fun hbefore i r hi => hbefore i r (by omega)

theorem Marked.use (h : w.Marked k m ref conn.snapshotSeq) (hk : k ≤ w.next)
    (hfresh : conn.isStale (BitVec.ofNat 16 w.next) = false) (hdevice : w'.device = w.device)
    (hnext : w'.next = w.next + 1) : w'.Marked k m ref none where
  reference s hs := by cases hs
  before hl := by
    rw [hdevice] at hl ⊢
    exact Or.inr fun i r hi him hr => h.repeats hk hfresh hl (by omega) him hr

/-- A report that shows what another does goes on from it. -/
theorem Repeats.goesOn {s r : Status} (h : Repeats s r) : s.GoesOn r := fun n hn => by
  obtain ⟨hevents, hmonitored, hlevels⟩ := h
  have hnone : r.levelsOf n = [] := by rw [Status.levelsOf, hevents]; rfl
  rw [hnone, Lib.flips_nil]
  exact ⟨hmonitored ▸ hn, (hlevels n hn).symm⟩

theorem Repeats.knows {s r : Status} {c : Ctx (Cable ω)} (h : Repeats s r)
    (hknows : Knows (hostReport r) c) : Knows (hostReport s) c := fun gpio => by
  obtain ⟨-, hmonitored, hlevels⟩ := h
  have hcovers : (hostReport r).covers gpio = (hostReport s).covers gpio := by
    rw [StatusReport.covers, StatusReport.covers, StatusReport.isMonitored, StatusReport.isMonitored]
    exact congrArg (fun mask => _ && maskBit mask gpio) hmonitored
  rw [hknows gpio, hcovers]
  cases hc : (hostReport s).covers gpio with
  | false => rfl
  | true =>
    have hlt : gpio.toNat < Host.gpioCount := of_decide_eq_true (Bool.and_eq_true_iff.mp hc).1
    obtain ⟨n, rfl⟩ : ∃ n : Gpio, Host.Gpio.toU8 n = gpio :=
      ⟨⟨gpio.toNat, hlt⟩, BitVec.eq_of_toNat_eq (Host.toNat_toU8 _)⟩
    rw [covers_hostReport] at hc
    rw [level_hostReport, level_hostReport, hlevels n hc]

end Cable

/-! ### The connection -/

/-- A connection of a watcher without a target. It knows what it read last, and has told the events of what
    it read since the answer. -/
structure Attached (k m : ℕ) (ref : Status) (config : Firmware.PinConfig) (base : List OnOffChange)
    (c : Ctx (Cable ω)) : Prop where
  target : c.loop.target = none
  configured : c.loop.config.toFirmware = config
  kept : ∀ gpio, (c.loop.known gpio).isSome = true → (c.loop.config.get gpio).isMonitored = true
  since : Since True k m ref config c.world.device
  opened : k ≤ c.world.next
  read : c.world.next ≤ c.world.device.sent.length
  faithful : Faithful c
  conn : ∃ conn, c.loop.conn = some conn ∧ conn.awaitingConfig = false ∧
    c.world.Marked k m ref conn.snapshotSeq
  told : c.world.device.Lossless k → Knows (hostReport ((c.world.heard m).getLastD ref)) c ∧
    changes c.emitted = base ++ c.loop.story (hostReport ref) ((c.world.heard m).map hostReport)

namespace Attached
variable {b c : Ctx (Cable ω)} {r : Firmware.Sent} {w : Cable ω}

/-- The device may have done something by itself, and notifications may have been emitted that tell of no
    change. -/
theorem of (h : Attached k m ref config base b) (hloop : c.loop =
      { b.loop with
        conn := c.loop.conn
        pending := c.loop.pending
        scanAt := c.loop.scanAt
        restoreAt := c.loop.restoreAt
        settleAt := c.loop.settleAt })
    (hconn : ∀ conn, b.loop.conn = some conn → ∃ conn', c.loop.conn = some conn' ∧
      conn'.awaitingConfig = conn.awaitingConfig ∧ conn'.snapshotSeq = conn.snapshotSeq)
    (hworld : b.world.Moved c.world) (hchanges : changes c.emitted = changes b.emitted)
    (hfaithful : Faithful c) : Attached k m ref config base c := by
  obtain ⟨hsince, hlossless, new, hnew⟩ := hworld.since h.since
  obtain ⟨conn, hsome, hawaiting, hmarked⟩ := h.conn
  obtain ⟨conn', hsome', hawaiting', hseq⟩ := hconn conn hsome
  have hlow : c.loop.isActiveLow = b.loop.isActiveLow :=
    WatchLoop.isActiveLow_congr (by rw [hloop]) (by rw [hloop])
  refine ⟨by rw [hloop]; exact h.target, by rw [hloop]; exact h.configured, by rw [hloop]; exact h.kept,
    hsince, by rw [hworld.next_eq]; exact h.opened, ?_, hfaithful,
    ⟨conn', hsome', hawaiting'.trans hawaiting, ?_⟩, fun hl => ?_⟩
  · rw [hworld.next_eq, hnew, List.length_append]
    exact Nat.le_add_right_of_le h.read
  · rw [hseq]
    exact hmarked.moved hworld h.since
  · obtain ⟨hknows, htold⟩ := h.told (hlossless hl)
    rw [Cable.heard_moved hworld hnew h.read, hchanges, WatchLoop.story_congr hlow]
    refine ⟨fun gpio => ?_, htold⟩
    rw [hlow, hloop]
    exact hknows gpio

/-- The report that is read next goes on from the one that was read last. -/
theorem goesOn (h : Attached k m ref config base b) (hl : b.world.device.Lossless k) (hm : m ≤ b.world.next)
    (hr : b.world.device.sent[b.world.next]? = some r) :
    ((b.world.heard m).getLastD ref).GoesOn r.status := by
  have hchain := (h.since.tells trivial hl).chain
  have hlen : m ≤ (b.world.device.sent.take b.world.next).length := by
    rw [List.length_take, min_eq_left h.read]
    exact hm
  have hsplit : (b.world.device.sent.drop m).map Firmware.Sent.status =
      b.world.heard m ++
        r.status :: (b.world.device.sent.drop (b.world.next + 1)).map Firmware.Sent.status := by
    obtain ⟨hlt, hget⟩ := List.getElem?_eq_some_iff.mp hr
    rw [Cable.heard, ← List.map_cons, ← List.map_append, ← hget, List.getElem_cons_drop hlt,
      ← List.drop_append_of_le_length hlen, List.take_append_drop]
  rw [hsplit, ← List.cons_append, List.isChain_append] at hchain
  refine hchain.2.2 _ ?_ r.status rfl
  rw [List.getLast?_cons, List.getLastD_eq_getLast?]
  rfl

/-- The next report goes on from what is known. It tells its events, unless it shows what was known. -/
theorem hears (h : Attached k m ref config base b) (hl : b.world.device.Lossless k)
    (hr : b.world.device.sent[b.world.next]? = some r) (hdevice : w.device = b.world.device)
    (hnext : w.next = b.world.next + 1) {conn : Connection}
    (hmarked : b.world.Marked k m ref conn.snapshotSeq)
    (hfresh : conn.isStale (BitVec.ofNat 16 b.world.next) = false) :
    ((b.world.heard m).getLastD ref).GoesOn r.status ∧
      (Knows (hostReport r.status) c → Knows (hostReport ((w.heard m).getLastD ref)) c) ∧
      b.loop.story (hostReport ref) ((w.heard m).map hostReport) =
        b.loop.story (hostReport ref) ((b.world.heard m).map hostReport) ++
          b.loop.news (hostReport ((b.world.heard m).getLastD ref)) (hostReport r.status) := by
  rcases lt_or_ge b.world.next m with hlt | hm
  · have hrepeats := hmarked.repeats h.opened hfresh hl le_rfl hlt hr
    have hnone : b.loop.news (hostReport ref) (hostReport r.status) = [] := by
      rw [WatchLoop.news, hostReport, hrepeats.1]
      rfl
    have hle : w.next ≤ m := hnext.trans_le hlt
    rw [Cable.heard_nil hle, Cable.heard_nil hlt.le, List.getLastD_nil, hnone, List.append_nil]
    exact ⟨hrepeats.goesOn, hrepeats.knows, rfl⟩
  · have hlast : ((b.world.heard m).map hostReport).getLastD (hostReport ref) =
        hostReport ((b.world.heard m).getLastD ref) := by
      rw [List.getLastD_eq_getLast?, List.getLastD_eq_getLast?, List.getLast?_map, Option.getD_map]
    rw [Cable.heard_succ hr hdevice hnext hm, List.map_append, List.map_singleton, WatchLoop.story_concat,
      List.getLastD_concat, hlast]
    exact ⟨h.goesOn hl hm hr, id, rfl⟩

/-- The next report was read. The rest of the state is as it was, but for what the connection knows. -/
theorem of_read (h : Attached k m ref config base b) (hr : b.world.device.sent[b.world.next]? = some r)
    (hdevice : w.device = b.world.device) (hnext : w.next = b.world.next + 1) (hworld : w.Moved c.world)
    (htarget : c.loop.target = b.loop.target) (hconfig : c.loop.config = b.loop.config)
    (hlow : c.loop.isActiveLow = b.loop.isActiveLow)
    (hkept : ∀ gpio, (c.loop.known gpio).isSome = true → (c.loop.config.get gpio).isMonitored = true)
    (hfaithful : Faithful c)
    (hconn : ∃ conn, c.loop.conn = some conn ∧ conn.awaitingConfig = false ∧
      w.Marked k m ref conn.snapshotSeq)
    (htold : w.device.Lossless k → Knows (hostReport ((w.heard m).getLastD ref)) c ∧
      changes c.emitted = base ++ b.loop.story (hostReport ref) ((w.heard m).map hostReport)) :
    Attached k m ref config base c := by
  have hread : w.next ≤ w.device.sent.length := by
    rw [hnext, hdevice]
    exact (List.getElem?_eq_some_iff.mp hr).1
  have hsince : Since True k m ref config w.device := hdevice ▸ h.since
  obtain ⟨hsince', hlossless, new, hnew⟩ := hworld.since hsince
  obtain ⟨conn, hsome, hawaiting, hmarked⟩ := hconn
  refine ⟨htarget.trans h.target, by rw [hconfig]; exact h.configured, hkept, hsince', ?_, ?_, hfaithful,
    ⟨conn, hsome, hawaiting, hmarked.moved hworld hsince⟩, fun hl => ?_⟩
  · rw [hworld.next_eq, hnext]
    exact Nat.le_succ_of_le h.opened
  · rw [hworld.next_eq, hnew, List.length_append]
    exact Nat.le_add_right_of_le hread
  · rw [Cable.heard_moved hworld hnew hread, WatchLoop.story_congr hlow]
    exact htold (hlossless hl)

end Attached

/-- Whoever knows a report knows inputs only, when it monitors inputs only. -/
theorem isMonitored_of_knows {r : Firmware.Status} {c : Ctx (Cable ω)} (hknows : Knows (hostReport r) c)
    (h : ∀ n, hasBit r.monitored n = true → modeIsInput (c.loop.config.toFirmware.mode n) = true) {gpio : U8}
    (hgpio : (c.loop.known gpio).isSome = true) : (c.loop.config.get gpio).isMonitored = true := by
  have hcovers : (hostReport r).covers gpio = true := by
    rw [hknows gpio] at hgpio
    by_contra hnot
    rw [if_neg hnot] at hgpio
    cases hgpio
  have hlt : gpio.toNat < Host.gpioCount := of_decide_eq_true (Bool.and_eq_true_iff.mp hcovers).1
  obtain ⟨n, rfl⟩ : ∃ n : Gpio, Host.Gpio.toU8 n = gpio :=
    ⟨⟨gpio.toNat, hlt⟩, BitVec.eq_of_toNat_eq (Host.toNat_toU8 _)⟩
  rw [covers_hostReport] at hcovers
  have hinput := h n hcovers
  have hbits : ∀ mode : PinMode, modeIsInput mode.toU8 = true → mode.isInput = true := by
    intro mode h
    cases mode <;> first | rfl | cases h
  rw [PinConfig.get_toU8]
  exact hbits _ hinput

/-- The connection is kept, unless it is lost. -/
def Follows (k m : ℕ) (ref : Status) (config : Firmware.PinConfig) (base : List OnOffChange)
    (asked : List (Asked (Cable ω))) (c : Ctx (Cable ω)) : Prop :=
  c.loop.conn.isSome = true → Attached k m ref config base c ∧ c.asked = asked

/-- The next report was read. -/
structure Arriving (r : Firmware.Sent) (b c : Ctx (Cable ω)) : Prop where
  report : b.world.device.sent[b.world.next]? = some r
  loop : c.loop = { b.loop with conn := c.loop.conn }
  device : c.world.device = b.world.device
  next : c.world.next = b.world.next + 1
  changes : changes c.emitted = changes b.emitted
  asked : c.asked = b.asked

/-! ### The methods -/

/-- The context after `absorb`: what is known is what the report says, and when the report goes on from what
    was known, its events were told. -/
structure Taken (report : StatusReport) (b c : Ctx (Cable ω)) : Prop where
  same : SameBut b c
  device : c.world.device = b.world.device
  next : c.world.next = b.world.next
  asked : c.asked = b.asked
  knows : Knows report c
  faithful : Faithful c
  changes : ∀ r, Knows r b → r.GoesOn report →
    changes c.emitted = changes b.emitted ++ b.loop.news r report

section Methods
variable [World ω] {b c c' : Ctx (Cable ω)} {conn conn' : Connection} {r : Firmware.Sent} {coherent : Prop}

theorem wp_absorb_from (report : StatusReport) (hconn : c.loop.conn.isSome = true) (hclock : Clocked c)
    (hfaithful : Faithful c) :
    (absorb report).wp (post (fun _ c' => Taken report c c') fun _ _ => False) c := by
  have hknows := wp_absorb_knows report hconn hclock hfaithful
  have hworld : (absorb report).wp (fun _ c' => c'.world.device = c.world.device ∧
      c'.world.next = c.world.next ∧ c'.asked = c.asked) c := by
    have hI : Learns fun c' : Ctx (Cable ω) => c'.world.device = c.world.device ∧
        c'.world.next = c.world.next ∧ c'.asked = c.asked :=
      ⟨fun _ h => h, fun h => h, fun h => h, fun _ h => h⟩
    exact hI.absorb report ⟨rfl, rfl, rfl⟩ (fun _ _ h => h) fun _ _ h => h
  have hchanges := fun r (hr : Knows r c) (hnext : r.GoesOn report) => wp_absorb_next hconn hclock hr hnext
  unfold Prog.wp at hknows hworld hchanges ⊢
  rcases hexec : (absorb report).exec c with ⟨e | _, c'⟩ <;> rw [hexec] at hknows hworld hchanges
  · exact hknows
  · exact ⟨hknows.1, hworld.1, hworld.2.1, hworld.2.2, hknows.2.1, hknows.2.2, fun r hr hnext =>
      (hchanges r hr hnext).1.changes⟩

/-- A report that tells of a change of the configuration that was before the device was opened. -/
theorem noting_configChanged (htarget : b.loop.target = none) (hconfig : b.loop.config.toFirmware = config)
    (hkept : ∀ gpio, (b.loop.known gpio).isSome = true → (b.loop.config.get gpio).isMonitored = true)
    (hsince : Since coherent k m ref config b.world.device) (h : Noting b.world.Moved b conn c) :
    configChanged.wp (fun r c' => c'.loop.conn = none ∨ r = .ok () ∧ Noting b.world.Moved b conn c') c := by
  obtain ⟨device, hdevice⟩ := h.conn
  unfold configChanged
  rw [wp_bind, wp_result, wp_onDevice _ hdevice]
  refine Cable.moves_getPinConfig (h.world.inv hsince.orderly.inv) (fun e w hw => ?_)
    fun report d w hw hread => ?_
  · exact wp_lost_unconnected e fun _ _ hnone => Or.inl hnone
  · have hmoved : b.world.Moved w := h.world.trans hw
    have h1 : Noting b.world.Moved b conn (c.withDevice { conn with device } (d, w)) := by
      refine ⟨?_, ⟨d, rfl⟩, h.changes, h.asked, h.faithful.of_view rfl, hmoved⟩
      rw [Ctx.withDevice, h.loop]
    rw [caught_ok, post_ok]
    generalize c.withDevice { conn with device } (d, w) = c1 at h1 ⊢
    have hsame : report.config = c1.loop.config := by
      rw [h1.loop]
      refine PinConfig.toFirmware_injective ((hread.trans ?_).trans hconfig.symm)
      exact (hmoved.since hsince).1.configured
    have hself : { c1 with loop := c1.loop.setConfig report.config } = c1 := by
      rw [hsame, WatchLoop.setConfig_self (by rw [h1.loop]; exact hkept)]
    have htarget1 : c1.loop.target = none := by rw [h1.loop]; exact htarget
    rw [loop_bind]
    refine setConfig_sound h1.faithful ?_
    rw [hself, loop_bind, htarget1, hsame]
    simp only [ne_eq, not_true_eq_false, decide_false, Bool.false_eq_true, if_false]
    exact Or.inr ⟨rfl, h1⟩

omit [World ω] in
theorem follows_lost {asked : List (Asked (Cable ω))} (h : c.loop.conn = none) :
    Follows k m ref config base asked c := fun hsome => by
  rw [h] at hsome
  cases hsome

omit [World ω] in
/-- A stale report is skipped. -/
theorem follows_stale (h : Attached k m ref config base b) (harriving : Arriving r b c)
    (hmarked : b.world.Marked k m ref conn.snapshotSeq)
    (hstale : conn.isStale (BitVec.ofNat 16 b.world.next) = true)
    (hnoting : Noting c.world.Moved c conn' c') (hawaiting : conn'.awaitingConfig = false)
    (hseq : conn'.snapshotSeq = conn.snapshotSeq) : Follows k m ref config base b.asked c' := fun _ => by
  have hlt := hmarked.lt_of_stale hstale
  obtain ⟨device, hsome⟩ := hnoting.conn
  have hloop : c'.loop =
      { b.loop with conn := c'.loop.conn, pending := c'.loop.pending, settleAt := c'.loop.settleAt } := by
    rw [hnoting.loop, harriving.loop]
  have hlow : c'.loop.isActiveLow = b.loop.isActiveLow :=
    WatchLoop.isActiveLow_congr (by rw [hloop]) (by rw [hloop])
  refine ⟨h.of_read harriving.report harriving.device harriving.next hnoting.world (by rw [hloop])
    (by rw [hloop]) hlow (by rw [hloop]; exact h.kept) hnoting.faithful ⟨_, hsome, hawaiting, ?_⟩
    fun hl => ?_, hnoting.asked.trans harriving.asked⟩
  · rw [hseq]
    exact hmarked.skip harriving.device harriving.next hlt
  · rw [harriving.device] at hl
    obtain ⟨hknows, htold⟩ := h.told hl
    have hnone : c.world.heard m = b.world.heard m := by
      rw [Cable.heard_nil (harriving.next ▸ hlt), Cable.heard_nil hlt.le]
    rw [hnone, hnoting.changes, harriving.changes]
    refine ⟨fun gpio => ?_, htold⟩
    rw [hlow, hloop]
    exact hknows gpio

/-- A report that is not stale tells its events, unless it shows what is known already. -/
theorem follows_absorb (h : Attached k m ref config base b) (harriving : Arriving r b c)
    (hmarked : b.world.Marked k m ref conn.snapshotSeq)
    (hfresh : conn.isStale (BitVec.ofNat 16 b.world.next) = false)
    (hnoting : Noting c.world.Moved c conn' c') (hawaiting : conn'.awaitingConfig = false)
    (hseq : conn'.snapshotSeq = none) (hclock : conn'.clock.cur.isSome = true) :
    (absorb (hostReport r.status)).wp (fun _ => Follows k m ref config base b.asked) c' := by
  obtain ⟨device, hsome⟩ := hnoting.conn
  have hclocked : Clocked c' := fun conn hc => by
    rw [hsome] at hc
    obtain rfl := Option.some.inj hc
    exact hclock
  refine wp_mono (wp_absorb_from (hostReport r.status) (by rw [hsome]; rfl) hclocked hnoting.faithful) ?_
  rintro (e | _) d hd
  · exact hd.elim
  obtain ⟨hsame, hdevice, hnext, hasked, hknows, hfaithful, hchanges⟩ := hd
  have hloop' : c'.loop =
      { b.loop with conn := c'.loop.conn, pending := c'.loop.pending, settleAt := c'.loop.settleAt } := by
    rw [hnoting.loop, harriving.loop]
  have hloop : d.loop = { b.loop with
      conn := c'.loop.conn
      known := d.loop.known
      pending := d.loop.pending
      settleAt := c'.loop.settleAt } := by
    rw [hsame, hloop']
  have hlow' : c'.loop.isActiveLow = b.loop.isActiveLow :=
    WatchLoop.isActiveLow_congr (by rw [hloop']) (by rw [hloop'])
  have hlow : d.loop.isActiveLow = b.loop.isActiveLow :=
    WatchLoop.isActiveLow_congr (by rw [hloop]) (by rw [hloop])
  have hconfig : d.loop.config = b.loop.config := by rw [hloop]
  have hmem : r ∈ b.world.device.sent.drop k := by
    refine List.mem_of_getElem? (i := b.world.next - k) ?_
    rw [List.getElem?_drop, Nat.add_sub_cancel' h.opened, harriving.report]
  refine fun _ => ⟨h.of_read harriving.report harriving.device harriving.next
    (hnoting.world.of_same hdevice hnext) (by rw [hloop]) hconfig hlow (fun gpio hgpio => ?_) hfaithful
    ⟨_, (congrArg WatchLoop.conn hloop).trans hsome, hawaiting, ?_⟩ fun hl => ?_,
    hasked.trans (hnoting.asked.trans harriving.asked)⟩
  · refine isMonitored_of_knows hknows (fun n hn => ?_) hgpio
    rw [hconfig, h.configured]
    exact h.since.inputs r hmem n hn
  · rw [hseq]
    exact hmarked.use h.opened hfresh harriving.device harriving.next
  · rw [harriving.device] at hl
    obtain ⟨hknown, htold⟩ := h.told hl
    have hknown' : Knows (hostReport ((b.world.heard m).getLastD ref)) c' := fun gpio => by
      rw [hlow', hloop']
      exact hknown gpio
    obtain ⟨hgoes, hknows', hstory⟩ :=
      h.hears hl harriving.report harriving.device harriving.next hmarked hfresh
    rw [hchanges _ hknown' (goesOn_hostReport hgoes), hnoting.changes, harriving.changes,
      WatchLoop.news_congr hlow', htold, hstory, List.append_assoc]
    exact ⟨hknows' hknows, rfl⟩

/-- The next report is handled. -/
theorem follows_status (at' : Instant) (missed : ℕ) (h : Attached k m ref config base b)
    (harriving : Arriving r b c) (hconn : c.loop.conn = some conn) (hawaiting : conn.awaitingConfig = false)
    (hmarked : b.world.Marked k m ref conn.snapshotSeq) (hfaithful : Faithful c) :
    (status (hostReport r.status) at' missed).wp (fun _ => Follows k m ref config base b.asked) c := by
  have hown : Firmware.Device.OwnReport r.status :=
    h.since.consistent.numbered.own r (List.mem_of_getElem? harriving.report)
  have hseq : (hostReport r.status).seq = BitVec.ofNat 16 b.world.next :=
    h.since.consistent.numbered.seq _ _ harriving.report
  refine wp_status_noting (F := c.world.Moved) at' missed hconn hawaiting hfaithful c.world.moved_refl
    (fun _ conn' c1 h1 => ?_) (fun _ _ => follows_lost) ?_
  · have hloop : c.loop = { b.loop with conn := c.loop.conn } := harriving.loop
    have hsince : Since True k m ref config c.world.device := harriving.device ▸ h.since
    refine noting_configChanged ?_ ?_ ?_ hsince h1
    · rw [hloop]
      exact h.target
    · rw [hloop]
      exact h.configured
    · rw [hloop]
      exact h.kept
  · intro conn' c1
    rw [not_hostRequest hown, hseq]
    dsimp only
    rw [Bool.not_false, Bool.true_and, Bool.false_or, Bool.false_and, Bool.or_false]
    intro hseq' hawaiting' hclock h1
    cases hstale : conn.isStale (BitVec.ofNat 16 b.world.next) with
    | true =>
      rw [hstale] at hseq'
      exact follows_stale h harriving hmarked hstale h1 hawaiting' hseq'
    | false =>
      rw [hstale] at hseq'
      exact follows_absorb h harriving hmarked hstale h1 hawaiting' hseq' hclock

theorem follows_received (at' : Instant) (h : Attached k m ref config base b) (harriving : Arriving r b c)
    (hconn : c.loop.conn = b.loop.conn) (hfaithful : Faithful c) :
    (received (reportIdStatus :: Firmware.encodeStatus r.status) at').wp
      (fun _ => Follows k m ref config base b.asked) c := by
  obtain ⟨conn, hsome, hawaiting, hmarked⟩ := h.conn
  have hown : Firmware.Device.OwnReport r.status :=
    h.since.consistent.numbered.own r (List.mem_of_getElem? harriving.report)
  refine wp_received_own at' (hconn.trans hsome) hown ?_
  exact follows_status at' _ h ⟨harriving.report, by rw [harriving.loop], harriving.device, harriving.next,
    harriving.changes, harriving.asked⟩ rfl hawaiting hmarked (hfaithful.of_view rfl)

/-- A device that did something by itself, at the connection. -/
theorem Attached.withDevice (h : Attached k m ref config base c) (hconn : c.loop.conn = some conn)
    {d : Host.Device} {w : Cable ω} (hw : c.world.Moved w) :
    Attached k m ref config base (c.withDevice conn (d, w)) := by
  refine h.of rfl (fun conn' hsome => ?_) hw rfl (h.faithful.of_view rfl)
  obtain rfl := Option.some.inj (hconn.symm.trans hsome)
  exact ⟨_, rfl, rfl, rfl⟩

/-- An alarm that is due, or one read of the device. -/
theorem follows_attend (h : Attached k m ref config base c) (hsound : Sound c) :
    attend.wp (fun _ => Follows k m ref config base c.asked) c := by
  obtain ⟨conn, hconn, hawaiting, -⟩ := h.conn
  have hscan : c.loop.scanAt = none := by
    have hscan := hsound.alarms.scan
    rw [hconn] at hscan
    simpa using hscan
  have hsettle : c.loop.settleAt = none := by
    have hsettle := hsound.alarms.settle
    rw [hconn, Option.any_some, hawaiting] at hsettle
    simpa using hsettle
  have hinner : ∀ (restoreAt : Option Instant) (world : ω), Attached k m ref config base { c with
      world := { c.world with world }, loop := { c.loop with restoreAt } } := fun restoreAt world =>
    h.of rfl (fun conn hsome => ⟨conn, hsome, rfl, rfl⟩) (c.world.moved_refl.of_same rfl rfl) rfl
      (h.faithful.of_view rfl)
  have htimed := hinner c.loop.restoreAt (World.instant c.world.world).2
  have hoff : ∀ now, ¬ due none now = true := fun _ hdue => by cases hdue
  have hconn1 : (Ctx.loop { c with world := (World.instant c.world).2 }).conn = some conn := hconn
  unfold attend
  rw [instant_bind, loop_bind]
  dsimp only
  rw [hscan, hsettle, if_neg (hoff _)]
  split
  · rw [setLoop_bind]
    unfold restoreTarget
    rw [loop_bind]
    split
    · next target _ htarget _ => cases h.target.symm.trans htarget
    · exact fun _ => ⟨hinner none _, rfl⟩
  rw [if_neg (hoff _)]
  split
  · exact fun _ => ⟨htimed, rfl⟩
  rw [wp_bind, wp_result, wp_onDevice conn hconn1]
  refine Cable.moves_readRaw _ (fun e w hw => ?_) (fun w hw => fun _ => ⟨htimed.withDevice hconn hw, rfl⟩)
    fun r w w' hw hr hdevice hnext => ?_
  · exact wp_lost_unconnected e fun _ _ => follows_lost
  · rw [caught_ok, post_ok, instant_bind]
    refine wp_mono (follows_received _ (htimed.withDevice hconn hw) ⟨hr, rfl, hdevice, hnext, rfl, rfl⟩ rfl
      (h.faithful.of_view rfl)) fun _ _ h' => h'

/-- The application switches outputs. -/
theorem follows_serve (levels : List (U8 × Bool)) (h : Attached k m ref config base c) :
    (serve (.setOutputs levels)).wp (fun _ => Follows k m ref config base c.asked) c := by
  obtain ⟨conn, hconn, -⟩ := h.conn
  have hreplied : ∀ {c1 : Ctx (Cable ω)} (reply : Except Error Unit), Attached k m ref config base c1 →
      Attached k m ref config base { c1 with replies := c1.replies ++ [(.setOutputs levels, reply)] } :=
    fun _ h1 => h1.of rfl (fun conn hsome => ⟨conn, hsome, rfl, rfl⟩) (Cable.moved_refl _) rfl
      (h1.faithful.of_view rfl)
  unfold serve
  rw [wp_bind, wp_result]
  refine (loop_bind _).mpr ?_
  rw [hconn, wp_onDevice conn hconn]
  refine wp_mono (Cable.moves_setOutputs levels) fun reply s hs => ?_
  have h1 : Attached k m ref config base (c.withDevice conn s) := h.withDevice hconn hs
  rcases reply with (e | e | _ | _) | _
  · exact fun _ => ⟨hreplied _ h1, rfl⟩
  · exact fun _ => ⟨h1, rfl⟩
  · exact fun _ => ⟨h1, rfl⟩
  · exact fun _ => ⟨h1, rfl⟩
  · exact fun _ => ⟨hreplied _ h1, rfl⟩

/-- Nothing that waits for the watch thread sets a target. -/
def Untargeted (c : Ctx (Cable ω)) : Prop :=
  ∀ config, .setTargetPins config ∉ c.serving ∧ .setTargetPins config ∉ c.shared.requests

theorem follows_iterate (h : Attached k m ref config base c) (hsound : Sound c) (hnone : Untargeted c) :
    iterate.wp (fun _ => Follows k m ref config base c.asked) c := by
  have hsame : ∀ {pending shared serving}, Attached k m ref config base
      { c with loop := { c.loop with pending }, shared, serving } :=
    h.of rfl (fun conn hsome => ⟨conn, hsome, rfl, rfl⟩) c.world.moved_refl rfl (h.faithful.of_view rfl)
  have hsound' : ∀ {pending shared serving}, Sound
      { c with loop := { c.loop with pending }, shared, serving } :=
    hsound.of_same ⟨rfl, rfl, rfl, rfl, rfl⟩ rfl
  unfold iterate
  rw [gets_bind]
  split
  · next request rest hserving =>
    rw [update_bind]
    refine wp_seq (R := fun _ => Follows k m ref config base c.asked) ?_ (fun _ _ h' => h') fun _ _ h' => h'
    cases request with
    | setTargetPins target =>
      refine absurd ?_ (hnone target).1
      rw [hserving]
      exact List.mem_cons_self
    | setOutputs levels => exact follows_serve levels hsame
  · unfold deliver takeRequests
    rw [update_bind, gets_bind]
    split
    · exact fun _ => ⟨hsame, rfl⟩
    · rw [update_bind, gets_bind]
      split
      · exact fun _ => ⟨hsame, rfl⟩
      · exact wp_seq (follows_attend hsame hsound') (fun _ _ h' => h') fun _ _ h' => h'

end Methods

end Hidpin.System
