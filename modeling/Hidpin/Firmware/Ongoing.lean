import Hidpin.Firmware.Sequel

/-! How the reports go on from a moment on. While no change of the configuration has still to settle and no
    event is lost, the queue goes on from the levels reported last, so each report tells how the pins of the
    one before it went on, whether or not it leaves events queued. -/

namespace Hidpin.Firmware.Device
open Engine
open Lib (Flips)

/-- None of the reports from this number on tells of a loss, and none has to be told. -/
def Lossless (k : ℕ) (d : Device) : Prop :=
  d.engine.queue.overflowed = false ∧ ∀ r ∈ d.sent.drop k, hasFlag r.status.flags flagOverflow = false

instance (k : ℕ) (d : Device) : Decidable (d.Lossless k) := inferInstanceAs (Decidable (_ ∧ _))

/-- The queue goes on from the levels reported last. -/
def Continuing (d : Device) : Prop := ∀ n, hasBit d.engine.monitored n = true → d.engine.Continues n

instance (d : Device) : Decidable d.Continuing := inferInstanceAs (Decidable (∀ _ : Gpio, _))

/-- No change of the configuration has still to settle, no loss has to be told, and the queue goes on from
    the levels reported last. -/
structure Ongoing (d : Device) : Prop where
  settled : d.engine.configChanged = false
  clear : d.engine.queue.overflowed = false
  continues : d.Continuing

/-- The levels reported last are those of this report. Until the first settle it monitors nothing. -/
structure Left (s : Status) (d : Device) : Prop where
  reported : ∀ n, hasBit s.monitored n = true →
    hasBit d.engine.monitored n = true ∧ hasBit d.engine.reportedLevels n = hasBit s.levels n
  booting : d.engine.settleActive = true → ∀ n, hasBit s.monitored n = false

variable {d : Device} {op : Op} {k : ℕ} {s : Status} {r : Sent}

/-- A loss stays until a report tells of it. -/
theorem lossless_of_step (hinv : d.Inv) (hk : k ≤ d.sent.length) (h : (d.step op).Lossless k) :
    d.Lossless k := by
  obtain ⟨hclear, htold⟩ := h
  rw [sent_step, List.drop_append_of_le_length hk] at htold
  refine ⟨?_, fun r hr => htold r (List.mem_append_left _ hr)⟩
  by_cases hop : ∃ nowUs accepted, op = .send nowUs accepted
  · obtain ⟨nowUs, accepted, rfl⟩ := hop
    rcases d.committed_send nowUs accepted with ⟨hc, he⟩ | ⟨-, he⟩
    · rw [hc] at htold
      have htold' := htold _ (List.mem_append_right _ List.mem_cons_self)
      rw [hasFlag_overflow] at htold'
      rw [he] at hclear
      have hclear : (d.engine.queue.overflowed && !d.engine.drains) = false := hclear
      cases hdrains : d.engine.drains with
      | true => simpa [hdrains] using htold'
      | false => simpa [hdrains] using hclear
    · rwa [he] at hclear
  · rw [dropsEvent_of_grows (grows_step hinv fun nowUs accepted heq => hop ⟨nowUs, accepted, heq⟩),
      Bool.or_eq_false_iff] at hclear
    exact hclear.1

theorem changesConfig_own (d : Device) (hop : ∀ payload nowUs, op ≠ .setPinConfig payload nowUs) :
    changesConfig (d, op) = false := by
  cases op with
  | setPinConfig payload nowUs => exact absurd rfl (hop payload nowUs)
  | _ => rfl

theorem configChanged_own (hsettled : d.engine.configChanged = false)
    (hop : ∀ payload nowUs, op ≠ .setPinConfig payload nowUs) :
    (d.step op).engine.configChanged = false := by
  rw [configChanged_step, changesConfig_own d hop, hsettled]
  exact Bool.and_false _

/-- Without a change of the configuration only the settle at the start can finish. -/
theorem booting_of_finishesSettle (h : d.Orderly) (hsettled : d.engine.configChanged = false)
    (hsettle : finishesSettle (d, op) = true) :
    d.engine.settleActive = true ∧ d.engine.queue.toList = [] ∧
      ∀ n, hasBit d.engine.monitored n = false := by
  have hactive : d.engine.settleActive = true := by
    cases op with
    | task nowUs inputs => exact (Bool.and_eq_true_iff.mp hsettle).1
    | _ => cases hsettle
  obtain ⟨hempty, hnone, -⟩ := h.booting hactive hsettled
  exact ⟨hactive, hempty, hnone⟩

theorem ongoing_of_empty (h : d.Orderly) (hsettled : d.engine.configChanged = false)
    (hclear : d.engine.queue.overflowed = false) (hempty : d.engine.queue.toList = []) : d.Ongoing :=
  ⟨hsettled, hclear, fun _ hn => h.emptied.continues hempty hn⟩

theorem ongoing_step (h : d.Orderly) (ho : d.Ongoing)
    (hop : ∀ payload nowUs, op ≠ .setPinConfig payload nowUs)
    (hclear : (d.step op).engine.queue.overflowed = false) : (d.step op).Ongoing := by
  refine ⟨configChanged_own ho.settled hop, hclear, fun n hn => ?_⟩
  by_cases hsend : ∃ nowUs accepted, op = .send nowUs accepted
  · obtain ⟨nowUs, accepted, rfl⟩ := hsend
    rcases d.committed_send nowUs accepted with ⟨-, he⟩ | ⟨-, he⟩ <;> rw [he] at hn ⊢
    · exact ((ho.continues n hn).handOver h.inv hn nowUs).1
    · exact ho.continues n hn
  replace hsend : ∀ nowUs accepted, op ≠ .send nowUs accepted :=
    fun nowUs accepted heq => hsend ⟨nowUs, accepted, heq⟩
  have hgrows := grows_step h.inv hsend
  rw [dropsEvent_of_grows hgrows, Bool.or_eq_false_iff] at hclear
  cases hsettle : finishesSettle (d, op) with
  | false =>
    rw [(sameReported_of hsend hsettle).monitored] at hn
    exact continues_step h.inv hsend hsettle hclear.2 (ho.continues n hn)
  | true =>
    obtain ⟨-, hempty, hnone⟩ := booting_of_finishesSettle h ho.settled hsettle
    obtain ⟨new, hhistory, hqueue, -, -⟩ := hgrows
    obtain rfl : new = [] := by
      rw [history_step h.inv hnone hsend] at hhistory
      exact List.self_eq_append_right.mp hhistory
    rw [hempty] at hqueue
    exact (orderly_step d op h).emptied.continues hqueue hn

/-- The levels reported last stay until the next report. -/
theorem left_step (h : d.Orderly) (hsettled : d.engine.configChanged = false)
    (hop : ∀ payload nowUs, op ≠ .setPinConfig payload nowUs) (hs : d.Left s)
    (hcommitted : d.committed op = none) : (d.step op).Left s := by
  have hactive : (d.step op).engine.settleActive = true → d.engine.settleActive = true := fun hactive => by
    rw [settleActive_step, changesConfig_own d hop, Bool.or_false, Bool.and_eq_true] at hactive
    exact hactive.2
  refine ⟨fun n hn => ?_, fun hbooting => hs.booting (hactive hbooting)⟩
  by_cases hsend : ∃ nowUs accepted, op = .send nowUs accepted
  · obtain ⟨nowUs, accepted, rfl⟩ := hsend
    rcases d.committed_send nowUs accepted with ⟨hc, -⟩ | ⟨-, he⟩
    · exact absurd (hcommitted.symm.trans hc) (by simp)
    · rw [he]
      exact hs.reported n hn
  cases hsettle : finishesSettle (d, op) with
  | false =>
    have hsame := sameReported_of (fun nowUs accepted heq => hsend ⟨nowUs, accepted, heq⟩) hsettle
    rw [hsame.monitored, hsame.reportedLevels]
    exact hs.reported n hn
  | true =>
    have hbooting := booting_of_finishesSettle h hsettled hsettle
    exact absurd (hn.symm.trans (hs.booting hbooting.1 n)) (by decide)

/-- A report goes on from the one before it, and its levels are then those reported last. -/
theorem left_handOver (h : d.Orderly) (ho : d.Ongoing) (hcommitted : d.committed op = some r) :
    (∀ s, d.Left s → s.GoesOn r.status) ∧ (d.step op).Left r.status := by
  obtain ⟨nowUs, accepted, rfl, rfl, -, he⟩ := committed_eq_some hcommitted
  refine ⟨fun s hs n hn => ?_, fun n hn => ?_, fun hactive => ?_⟩
  · obtain ⟨hmonitored, hlevel⟩ := hs.reported n hn
    rw [← hlevel]
    exact ⟨hmonitored, ((ho.continues n hmonitored).handOver h.inv hmonitored nowUs).2⟩
  · rw [he]
    exact ⟨hn, (hasBit_report h.inv hn nowUs).symm⟩
  · rw [he] at hactive
    exact (h.booting hactive ho.settled).2.1

/-- The answer to a status request gives the levels reported last when no event is queued. -/
theorem left_getStatus (h : d.Orderly) (hsettled : d.engine.configChanged = false)
    (hempty : d.engine.queue.toList = []) (nowUs : U64) : d.Left (d.engine.getStatus nowUs) := by
  refine ⟨fun n hn => ⟨hn, ?_⟩, fun hactive => (h.booting hactive hsettled).2.1⟩
  have hn : hasBit d.engine.monitored n = true := hn
  rw [getStatus, hasBit_or, hasBit_and, h.inv.not_output hn, Bool.and_false, Bool.or_false,
    hasBit_confirmedLevels, hn, Bool.true_and]
  exact h.emptied hempty n hn

/-! ### The reports after a moment -/

/-- These reports go on one from another, and the device goes on from the last. -/
structure Tells (reports : List Status) (d : Device) : Prop where
  ongoing : d.Ongoing
  chain : reports.IsChain Status.GoesOn
  last : ∀ s ∈ reports.getLast?, d.Left s

theorem tells_step {reports : List Status} (h : d.Orderly) (ht : d.Tells reports)
    (hop : ∀ payload nowUs, op ≠ .setPinConfig payload nowUs)
    (hclear : (d.step op).engine.queue.overflowed = false) :
    (d.step op).Tells (reports ++ (d.committed op).toList.map Sent.status) := by
  have hongoing := ongoing_step h ht.ongoing hop hclear
  rcases hcommitted : d.committed op with _ | r
  · rw [Option.toList_none, List.map_nil, List.append_nil]
    exact ⟨hongoing, ht.chain, fun s hs => left_step h ht.ongoing.settled hop (ht.last s hs) hcommitted⟩
  · obtain ⟨hgoes, hleft⟩ := left_handOver h ht.ongoing hcommitted
    refine ⟨hongoing, ?_, fun s hs => ?_⟩
    · rw [Option.toList_some, List.map_singleton, List.isChain_append]
      refine ⟨ht.chain, List.isChain_singleton _, fun s hs s' hs' => ?_⟩
      obtain rfl := Option.some.inj hs'
      exact hgoes s (ht.last s hs)
    · rw [Option.toList_some, List.map_singleton, List.getLast?_concat] at hs
      obtain rfl := Option.some.inj hs
      exact hleft

/-- When none of the reports from a number on carries an event, all of them show the levels reported last. -/
def Silent (k : ℕ) (d : Device) : Prop :=
  (∀ r ∈ d.sent.drop k, r.status.events = []) →
    d.sent.drop k = [] ∨ d.Ongoing ∧ ∀ r ∈ d.sent.drop k, d.Left r.status

/-- A report without events leaves nothing queued. -/
theorem empty_of_report {nowUs : U64} (h : (d.engine.report nowUs).events = []) :
    d.engine.queue.toList = [] := by
  have hcarried : d.engine.carried = [] := List.map_eq_nil_iff.mp h
  rcases List.take_eq_nil_iff.mp hcarried with h | h
  · cases h
  · exact h

theorem silent_step (h : d.Orderly) (hsettled : d.engine.configChanged = false)
    (hop : ∀ payload nowUs, op ≠ .setPinConfig payload nowUs) (hk : k ≤ d.sent.length)
    (hlossless : (d.step op).Lossless k) (hs : d.Silent k) : (d.step op).Silent k := by
  intro hnone
  have hclear := (lossless_of_step h.inv hk hlossless).1
  rw [sent_step, List.drop_append_of_le_length hk] at hnone ⊢
  have hbefore := hs fun r hr => hnone r (List.mem_append_left _ hr)
  rcases hcommitted : d.committed op with _ | r
  · rw [Option.toList_none, List.append_nil]
    rcases hbefore with hnil | ⟨hongoing, hleft⟩
    · exact Or.inl hnil
    · exact Or.inr ⟨ongoing_step h hongoing hop hlossless.1,
        fun r hr => left_step h hsettled hop (hleft r hr) hcommitted⟩
  · have hr : r.status.events = [] := hnone r (by rw [hcommitted]; simp)
    have hongoing : d.Ongoing := by
      obtain ⟨nowUs, accepted, rfl, rfl, -, -⟩ := committed_eq_some hcommitted
      exact ongoing_of_empty h hsettled hclear (empty_of_report hr)
    obtain ⟨hgoes, hnew⟩ := left_handOver h hongoing hcommitted
    refine Or.inr ⟨ongoing_step h hongoing hop hlossless.1, fun r' hr' => ?_⟩
    rcases List.mem_append.mp hr' with hr' | hr'
    · -- The levels of an earlier report are those of the new one, which carries no event.
      have hleft' : d.Left r'.status := by
        rcases hbefore with hnil | ⟨-, hleft⟩
        · rw [hnil] at hr'
          cases hr'
        · exact hleft r' hr'
      have hlevels : ∀ n, r.status.levelsOf n = [] := fun n => by rw [Status.levelsOf, hr]; rfl
      refine ⟨fun n hn => ?_, fun hactive => ?_⟩
      · obtain ⟨hmonitored, hflips⟩ := hgoes _ hleft' n hn
        rw [hlevels, Lib.flips_nil] at hflips
        rw [hflips]
        exact hnew.reported n hmonitored
      · rw [settleActive_step, changesConfig_own d hop, Bool.or_false, Bool.and_eq_true] at hactive
        exact hleft'.booting hactive.2
    · obtain rfl := List.mem_singleton.mp hr'
      exact hnew

end Hidpin.Firmware.Device
