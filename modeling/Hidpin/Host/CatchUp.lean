import Hidpin.Host.Sequel

/-! What a watcher knows after a report, whatever it knew before it and however many reports it missed: the
    ON/OFF of the pins the report monitors, at the levels the report gives. -/

namespace Hidpin.Host
open Lib
variable {ω : Type} {b c : Ctx ω}

/-- The loop after `absorb` is the one before but for what is known and what waits for the application. -/
def SameBut (b c : Ctx ω) : Prop := c.loop = { b.loop with known := c.loop.known, pending := c.loop.pending }

/-- After a report the loop knows it, and has told what it knows. -/
structure Learned (b : Ctx ω) (report : StatusReport) (c : Ctx ω) : Prop where
  config : c.loop.config = b.loop.config
  activeLow : c.loop.activeLow = b.loop.activeLow
  listens : Listens c
  knows : Knows report c
  faithful : Faithful c

theorem Learned.isActiveLow {report : StatusReport} (h : Learned b report c) (gpio : U8) :
    c.loop.isActiveLow gpio = b.loop.isActiveLow gpio := by
  rw [isActiveLow_eq, isActiveLow_eq, h.config, h.activeLow]

theorem Learned.trans {report report' : StatusReport} {d : Ctx ω} (h : Learned b report c)
    (h' : Learned c report' d) : Learned b report' d :=
  ⟨h'.config.trans h.config, h'.activeLow.trans h.activeLow, h'.listens, h'.knows, h'.faithful⟩

namespace Watch
open Prog
variable [World ω]

theorem learns_sameBut (b : Ctx ω) : Learns (SameBut b) where
  known known h := by
    rw [SameBut] at h ⊢
    rw [h]
  instant h := h
  systemTime h := h
  push {c event} _ h := by
    rw [SameBut] at h ⊢
    rw [Ctx.push, h]

/-- Absorbing a report teaches the loop its levels. -/
theorem wp_absorb_knows (report : StatusReport) (hconn : c.loop.conn.isSome = true) (hclock : Clocked c)
    (hfaithful : Faithful c) :
    (absorb report).wp (post (fun _ c' => SameBut c c' ∧ Knows report c' ∧ Faithful c') fun _ _ => False)
      c := by
  have hagree := wp_absorb report hconn hclock hfaithful
  have hrecord : (absorb report).wp (post (fun _ c' => SameBut c c' ∧ ∃ a ∈ c'.absorbed, a.report = report ∧
      a.after = c'.loop) fun _ _ => True) c :=
    (learns_sameBut c).absorb report rfl (fun _ _ _ => trivial) fun c' events h' => ⟨h', by simp⟩
  refine wp_mono (Q := fun r c' => post (fun _ => Faithful) (fun _ _ => False) r c' ∧ _) ⟨hagree, hrecord⟩ ?_
  rintro (_ | _) c' ⟨hend, hrecorded⟩
  · exact hend
  · obtain ⟨hsame, a, ha, rfl, hafter⟩ := hrecorded
    refine ⟨hsame, fun gpio => ?_, hend⟩
    have hknown := (hend.absorbed a ha).known gpio
    rw [hafter] at hknown
    simpa only [StatusReport.covers, Bool.and_eq_true, decide_eq_true_iff] using hknown

/-- On a connection that listens, the loop then still listens. -/
theorem wp_absorb_learned (report : StatusReport) (h : Absorbing b c) (hfaithful : Faithful b) :
    (absorb report).wp (post (fun _ => Learned b report) fun _ _ => False) c := by
  refine wp_mono (wp_absorb_knows report h.clocked.1 h.clocked.2 (h.faithful hfaithful)) ?_
  rintro (_ | _) c' h'
  · exact h'
  · obtain ⟨hsame, hknows, hend⟩ := h'
    obtain ⟨conn, hconn, hsnapshot, hawaiting, -⟩ := h.conn
    exact ⟨by rw [hsame, h.config], by rw [hsame, h.activeLow],
      ⟨conn, by rw [hsame, hconn], hsnapshot, hawaiting⟩, hknows, hend⟩

/-- However many reports were missed, the loop knows the last one it read. -/
theorem wp_hear_learned :
    ∀ (reports : List StatusReport) {heard : List (List U8 × Instant)} {r : StatusReport} {b : Ctx ω},
      heard.map (fun x => Tally.reportIn x.1) = (reports ++ [r]).map some → Listens b → Faithful b →
      (∀ report ∈ reports ++ [r], report.plain = true) →
      (hear heard).wp (post (fun _ => Learned b r) fun _ _ => False) b
  | [], heard, r, b, hdata, hlistens, hfaithful, hplain => by
    obtain ⟨x, heard, rfl, hx, hheard⟩ := List.map_eq_cons_iff.mp hdata
    obtain rfl := List.map_eq_nil_iff.mp hheard
    refine wp_then (wp_received_plain x.2 hx hlistens (hplain r (by simp)) fun c h =>
      wp_absorb_learned r h hfaithful) ?_
    rintro _ c h
    exact h
  | r' :: reports, heard, r, b, hdata, hlistens, hfaithful, hplain => by
    obtain ⟨x, heard, rfl, hx, hheard⟩ := List.map_eq_cons_iff.mp hdata
    obtain ⟨hplain', hplain⟩ := List.forall_mem_cons.mp hplain
    refine wp_then (wp_received_plain x.2 hx hlistens hplain' fun c h => wp_absorb_learned r' h hfaithful) ?_
    rintro _ c h
    refine wp_mono (wp_hear_learned reports hheard h.listens h.faithful hplain) ?_
    rintro (_ | _) c' h'
    · exact h'
    · exact h.trans h'

end Watch

/-- A watcher has told what it knows. -/
theorem Watcher.faithful_run [World ω] (o : WatchOptions) (w : ω) (inputs : List Input) :
    Faithful (Lib.run step (start o w) inputs).ctx := by
  refine stable_run Watch.stable_faithful ⟨fun gpio on hon => ?_, fun gpio hgpio => ?_, fun x hx => ?_,
    fun a ha => ?_⟩ inputs
  · cases hon
  · cases hgpio
  · cases hx
  · cases ha

end Hidpin.Host
