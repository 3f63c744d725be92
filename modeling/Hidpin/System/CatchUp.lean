import Hidpin.Firmware.Picture
import Hidpin.Host.CatchUp
import Hidpin.System.Sequel

/-! From the electrical values to what a program is told. Once the pins have been quiet long enough, the
    latest report brings any watcher that reads it up to date, whatever it knew before and whichever reports
    it missed. -/

namespace Hidpin.System
open Host Lib
open Firmware (Sent Main LoopStep Turn modeIsInput hasBit)

theorem getLast?_toList {α : Type} (o : Option α) : o.toList.getLast? = o := by cases o <;> rfl

theorem reportIn_brought {sent reports : List Sent} (hown : ∀ r ∈ sent, Firmware.Device.OwnReport r.status)
    (hsent : ∀ r ∈ reports, r ∈ sent) {heard : List (List U8 × Instant)} (hheard : Brings heard reports) :
    heard.map (fun x => Tally.reportIn x.1) = (reports.map fun r => hostReport r.status).map some := by
  rw [← Function.comp_def Tally.reportIn, ← List.map_map, hheard, List.map_map, List.map_map]
  exact List.map_congr_left fun r hr => reportIn_own (hown r (hsent r hr))

/-- A watcher that knows a report which shows the pins knows the pins. -/
theorem knows_pins {ω : Type} {c : Ctx ω} {word : U32} {e : Firmware.Engine} {r : Firmware.Status}
    (h : e.Shows word r) (hknows : Knows (hostReport r) c) (n : Firmware.Gpio) :
    c.loop.known (Host.Gpio.toU8 n) = if modeIsInput (e.config.mode n) then
      some (hasBit word n != c.loop.isActiveLow (Host.Gpio.toU8 n)) else none := by
  rw [hknows, covers_hostReport, h.monitored, Firmware.hasBit_inputMask, level_hostReport]
  split_ifs with hinput
  · rw [h.input n hinput]
  · rfl

/-- Between two iterations of a run that never took the overflow flag over stale edges: when no pin has
    changed and no Set has arrived since `t`, and the firmware has turned at least every `δ` µs since then,
    for 1.255 s and six turns, the endpoint taking its reports, a watcher that listens on its connection and
    reads reports of the device up to the latest, none of which tells of a changed configuration, knows and
    has told of every input whether it is ON by its electrical value, and knows no other pin. -/
theorem watcher_catches_up {ω : Type} [World ω] (info : Firmware.DeviceInfo) (startUs : U64) (pins : U32)
    (before : List LoopStep) (turns : List Turn) (t : U64) (δ : ℕ) (hstart : startUs.toNat ≤ t.toNat)
    (hbefore : ∀ i ∈ before, Main.By t i)
    (hstale : ∀ x ∈ Lib.steps Main.loopStep (Main.boot info startUs pins) before, x.1.staleLoop x.2 = false)
    (hphase : (Lib.run Main.loopStep (Main.boot info startUs pins) before).phase = .start)
    (hpace : Lib.Paced δ (t.toNat :: turns.map fun turn => turn.nowUs.toNat))
    (hlong : t.toNat + 1255 * 1000 + 6 * δ ≤ (turns.map fun turn => turn.nowUs.toNat).getLastD t.toNat)
    (o : WatchOptions) (w : ω) (inputs : List Input) (heard : List (List U8 × Instant)) (reports : List Sent)
    (hlistens : Listens (Lib.run Watcher.step (.start o w) inputs).ctx) (hheard : Brings heard reports)
    (hchanged : ∀ r ∈ reports, Firmware.hasFlag r.status.reason Firmware.reasonConfigChanged = false) :
    let is := before ++ turns.flatMap Turn.steps
    let m := Lib.run Main.loopStep (Main.boot info startUs pins) is
    let d := (Main.boot info startUs pins).device (.start info startUs) is
    let c := (Lib.run Watcher.step (.start o w) inputs).ctx
    let c' := ((Watch.hear heard).exec c).2
    (∀ r ∈ reports, r ∈ d.sent) → reports.getLast? = d.sent.getLast? → ∀ n,
      (c'.loop.known (Host.Gpio.toU8 n) = if modeIsInput (m.engine.config.mode n) then
        some (hasBit m.pins n != c.loop.isActiveLow (Host.Gpio.toU8 n)) else none) ∧
      (modeIsInput (m.engine.config.mode n) = true → told c'.emitted (Host.Gpio.toU8 n) =
        some (hasBit m.pins n != c.loop.isActiveLow (Host.Gpio.toU8 n))) := by
  intro is m d c c' hsent hlatest n
  obtain ⟨r, hr, hshows⟩ :=
    Main.latest_shows info startUs pins before turns t δ hstart hbefore hstale hphase hpace hlong
  have hown : ∀ r ∈ d.sent, Firmware.Device.OwnReport r.status :=
    (Firmware.Device.numbered_run info startUs _).own
  obtain ⟨earlier, rfl⟩ := List.getLast?_eq_some_iff.mp (hlatest.trans hr)
  have hdata := reportIn_brought hown hsent hheard
  have hown' : ∀ report ∈ (earlier ++ [r]).map fun r => hostReport r.status, report.plain = true :=
    List.forall_mem_map.mpr fun s hs => plain_hostReport (hown s (hsent s hs)) (hchanged s hs)
  rw [List.map_append, List.map_singleton] at hdata hown'
  have hlearned := Watch.wp_hear_learned _ hdata hlistens (Watcher.faithful_run o w inputs) hown'
  have hend : Learned c (hostReport r.status) c' := by
    unfold Prog.wp at hlearned
    rcases hexec : (Watch.hear heard).exec c with ⟨e | a, c''⟩
    · rw [hexec] at hlearned
      exact hlearned.elim
    · have hc : c' = c'' := congrArg Prod.snd hexec
      rw [hexec] at hlearned
      rw [hc]
      exact hlearned
  have hknown := knows_pins hshows hend.knows n
  rw [hend.isActiveLow] at hknown
  refine ⟨hknown, fun hinput => ?_⟩
  rw [if_pos hinput] at hknown
  exact hend.faithful.told _ _ hknown

/-- A watcher that has read one report, since it connected. -/
def awareScript : Host.Script where
  features := [.ok Host.Script.deviceInfo, .ok Host.Script.unconfigured]
  sends := []
  inputs := [.ok Host.Script.status]
  reads := (missedSent.take 1).map fun r => .ok (reportIdStatus :: Firmware.encodeStatus r.status)

theorem listens_aware :
    Listens (Lib.run Watcher.step (.start ⟨none, none, [], 1⟩ awareScript) [.turn, .turn]).ctx := by
  have hconn : (Lib.run Watcher.step (.start ⟨none, none, [], 1⟩ awareScript)
      [.turn, .turn]).ctx.loop.conn.map (fun conn => (conn.snapshotSeq, conn.awaitingConfig)) =
        some (none, false) := by decide +kernel
  obtain ⟨conn, hconn, hfields⟩ := Option.map_eq_some_iff.mp hconn
  exact ⟨conn, hconn, congrArg Prod.fst hfields, congrArg Prod.snd hfields⟩

/-- The latest report of the firmware after eight turns. -/
def latestSent (n : Firmware.Gpio) : List Sent :=
  ((Main.boot (Firmware.Device.sampleInfo 3) 0 1).device (.start (Firmware.Device.sampleInfo 3) 0)
    (Main.rewired n ++ Main.eightTurns.flatMap Turn.steps)).sent.getLast?.toList

theorem watcher_catches_up_run :
    ((Watch.hear ((latestSent 0).map fun r => (reportIdStatus :: Firmware.encodeStatus r.status, 0))).exec
      (Lib.run Watcher.step (.start ⟨none, none, [], 1⟩ awareScript) [.turn, .turn]).ctx).2.loop.known
        (Host.Gpio.toU8 0) = some true := by
  obtain ⟨hdevice, hpins⟩ := Main.device_turns Main.eightTurns Main.caught_rewired
    ((Main.boot (Firmware.Device.sampleInfo 3) 0 1).device (.start (Firmware.Device.sampleInfo 3) 0)
      (Main.rewired 0))
  have hchanged : ∀ r ∈ latestSent 0,
      Firmware.hasFlag r.status.reason Firmware.reasonConfigChanged = false := by
    rw [latestSent, Main.device_append, hdevice]
    decide +kernel
  have h := watcher_catches_up (Firmware.Device.sampleInfo 3) 0 1 (Main.rewired 0) Main.eightTurns 3000
    1000000 (by decide) (by decide +kernel) (by decide +kernel) Main.caught_rewired.phase
    (by decide +kernel) (by decide +kernel)
    ⟨none, none, [], 1⟩ awareScript [.turn, .turn]
    ((latestSent 0).map fun r => (reportIdStatus :: Firmware.encodeStatus r.status, 0)) (latestSent 0)
    listens_aware (by rw [Brings, List.map_map, Function.comp_def]) hchanged
    (fun r hr => List.mem_of_getLast? (Option.mem_toList.mp hr)) (getLast?_toList _) 0
  have hengine : (Firmware.Device.start (Firmware.Device.sampleInfo 3) 0).engine =
    (Main.boot (Firmware.Device.sampleInfo 3) 0 1).engine := rfl
  obtain ⟨hknown, -⟩ := h
  rw [← Main.engine_device hengine, Main.device_append, hdevice, Firmware.Device.config_turns,
    Lib.run_append, hpins] at hknown
  rw [hknown]
  decide +kernel

end Hidpin.System
