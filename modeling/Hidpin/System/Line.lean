import Hidpin.System.Missed
import Hidpin.System.Port

/-! A change of the pin configuration between the device and a host that reads its reports. The device
    publishes a change when it settles and tells of it with CONFIG_CHANGED in the next report; until then its
    reports are about the configuration before. The phases say what the host may still read. -/

namespace Hidpin.Firmware

/-- The report tells of a change of the configuration. -/
def Sent.tells (r : Sent) : Bool := hasFlag r.status.reason reasonConfigChanged

/-- The pins that `published` monitors have the same mode in both configurations. -/
def PinConfig.Fits (published config : PinConfig) : Prop :=
  ∀ n, modeIsInput (published.mode n) = true → published.mode n = config.mode n

instance (published config : PinConfig) : Decidable (published.Fits config) :=
  inferInstanceAs (Decidable (∀ _, _))

theorem PinConfig.Fits.refl (config : PinConfig) : config.Fits config := fun _ _ => rfl

end Hidpin.Firmware

namespace Hidpin.System
open Firmware (Sent PinConfig)

/-- The reports the host has still to read, whether a change has still to settle, whether the next report
    will tell of one, what is published and what is configured. -/
structure Line where
  unread : List Sent
  changing : Bool
  telling : Bool
  published : PinConfig
  config : PinConfig

namespace Line

/-- What the device does by itself. -/
inductive Moves (l : Line) : Line → Prop where
  | idle : Moves l l
  | report (r : Sent) (htells : r.tells = l.telling) (hpublished : r.published = l.published) :
      Moves l { l with unread := l.unread ++ [r], telling := false }
  | settle : Moves l { l with changing := false, telling := l.telling || l.changing, published := l.config }

/-- No report about a change is on its way. -/
def quiet (l : Line) : Bool := !l.telling && l.unread.all fun r => !r.tells

/-- Once nothing is changing, what is published fits the configuration. -/
def Settles (l : Line) : Prop := l.changing = false → l.published.Fits l.config

/-- A change that has still to settle is the only one. -/
def Single (l : Line) : Prop := l.changing = true → l.telling = false

variable {l l' : Line}

theorem Settles.moves (h : l.Settles) (hm : l.Moves l') : l'.Settles := by
  cases hm with
  | idle => exact h
  | report r htells hpublished => exact h
  | settle => exact fun _ => PinConfig.Fits.refl _

theorem Single.moves (h : l.Single) (hm : l.Moves l') : l'.Single := by
  cases hm with
  | idle => exact h
  | report r htells hpublished => exact fun _ => rfl
  | settle => exact fun hchanging => by cases hchanging

/-! ### The phases -/

/-- Of these reports the host may use only such that fit the configuration: the others are stale, and
    first. -/
def Usable (stale : U16 → Bool) (known : PinConfig) (reports : List Sent) : Prop :=
  ∃ old fresh, reports = old ++ fresh ∧ (∀ r ∈ old, stale r.status.seq = true) ∧
    ∀ r ∈ fresh, r.published.Fits known

/-- Nothing changes. -/
structure Steady (stale : U16 → Bool) (l : Line) : Prop where
  settled : l.changing = false
  usable : Usable stale l.config l.unread

/-- Either a change has still to settle, or the next report will tell of it, or the first of these does. -/
def Told (l : Line) : List Sent → Prop
  | [] => l.telling = !l.changing
  | r :: _ => r.tells = true ∧ l.changing = false

/-- A change is under way, and `after` begins with the report that tells of it. -/
structure Changing (l : Line) (before after : List Sent) : Prop where
  unread : l.unread = before ++ after
  before_tells : ∀ r ∈ before, r.tells = false
  after_fits : ∀ r ∈ after, r.published.Fits l.config
  told : l.Told after

/-- What the host may read, when it knows this configuration. After a Set that it did not read back it may
    not know that a change is under way. -/
inductive Phase (stale : U16 → Bool) (awaiting unseen : Bool) (known : PinConfig) (l : Line) : Prop where
  | steady (h : l.Steady stale) (hknown : known = l.config)
  | awaited (hawaiting : awaiting = true) (before after : List Sent) (h : l.Changing before after)
  | unknown (hunseen : unseen = true) (before after : List Sent) (h : l.Changing before after)
    (husable : Usable stale known before) (hpublished : l.changing = true → l.published.Fits known)

variable {stale stale' : U16 → Bool} {awaiting unseen : Bool} {known : PinConfig}
  {reports before after : List Sent}
  {r : Sent}

namespace Usable

theorem of_fits (h : ∀ r ∈ reports, r.published.Fits known) : Usable stale known reports :=
  ⟨[], reports, rfl, List.forall_mem_nil _, h⟩

theorem of_stale (h : ∀ r ∈ reports, stale r.status.seq = true) : Usable stale known reports :=
  ⟨reports, [], (List.append_nil _).symm, h, List.forall_mem_nil _⟩

theorem concat (h : Usable stale known reports) (hr : r.published.Fits known) :
    Usable stale known (reports ++ [r]) := by
  obtain ⟨old, fresh, rfl, hold, hfresh⟩ := h
  refine ⟨old, fresh ++ [r], List.append_assoc _ _ _, hold, fun r' hr' => ?_⟩
  rcases List.mem_append.mp hr' with hr' | hr'
  · exact hfresh r' hr'
  · rw [List.mem_singleton.mp hr']
    exact hr

/-- A report that is not stale fits, and after it none is stale. -/
theorem tail (h : Usable stale known (r :: reports)) (hstale : stale r.status.seq = true → stale' = stale) :
    Usable stale' known reports ∧ (stale r.status.seq = false → r.published.Fits known) := by
  obtain ⟨_ | ⟨r', old⟩, fresh, heq, hold, hfresh⟩ := h
  · rw [List.nil_append] at heq
    subst heq
    exact ⟨of_fits fun r' hr' => hfresh r' (List.mem_cons_of_mem r hr'),
      fun _ => hfresh r List.mem_cons_self⟩
  · obtain ⟨rfl, rfl⟩ := List.cons.inj heq
    have hr := hold r List.mem_cons_self
    rw [hstale hr]
    refine ⟨⟨old, fresh, rfl, fun r' hr' => hold r' (List.mem_cons_of_mem r hr'), hfresh⟩, fun hfalse => ?_⟩
    rw [hr] at hfalse
    cases hfalse

end Usable

theorem Steady.moves (h : l.Steady stale) (hsettles : l.Settles) (hm : l.Moves l') : l'.Steady stale := by
  cases hm with
  | idle => exact h
  | report r htells hpublished =>
    refine ⟨h.settled, h.usable.concat ?_⟩
    rw [hpublished]
    exact hsettles h.settled
  | settle => exact ⟨rfl, h.usable⟩

/-- A report of the device is about the configuration before, until the one that tells of the change. -/
theorem Changing.moves (h : l.Changing before after) (hsettles : l.Settles) (hm : l.Moves l') :
    ∃ before' after', l'.Changing before' after' ∧
      (before' = before ∨ ∃ r, before' = before ++ [r] ∧ r.published = l.published ∧ l.changing = true) ∧
      (l'.changing = true → l.changing = true ∧ l'.published = l.published) := by
  obtain ⟨hunread, hbefore, hafter, htold⟩ := h
  cases hm with
  | idle =>
    exact ⟨before, after, ⟨hunread, hbefore, hafter, htold⟩, Or.inl rfl, fun hchanging => ⟨hchanging, rfl⟩⟩
  | settle =>
    refine ⟨before, after, ⟨hunread, hbefore, hafter, ?_⟩, Or.inl rfl, fun hchanging => by cases hchanging⟩
    cases after with
    | nil =>
      rw [Told] at htold ⊢
      rw [htold]
      cases l.changing <;> rfl
    | cons r rest => exact ⟨htold.1, rfl⟩
  | report r htells hpublished =>
    have hfits : l.changing = false → r.published.Fits l.config := fun hchanging => by
      rw [hpublished]
      exact hsettles hchanging
    by_cases hlast : after = [] ∧ l.changing = true
    · obtain ⟨rfl, hchanging⟩ := hlast
      rw [Told, hchanging] at htold
      refine ⟨before ++ [r], [], ⟨?_, fun r' hr' => ?_, hafter, ?_⟩, Or.inr ⟨r, rfl, hpublished, hchanging⟩,
        fun h => ⟨h, rfl⟩⟩
      · rw [hunread, List.append_nil, List.append_nil]
      · rcases List.mem_append.mp hr' with hr' | hr'
        · exact hbefore r' hr'
        · rw [List.mem_singleton.mp hr', htells, htold]
          rfl
      · rw [Told, hchanging]
        rfl
    · have hchanging : l.changing = false := by
        cases after with
        | nil => simpa using hlast
        | cons r' rest => exact htold.2
      refine ⟨before, after ++ [r], ⟨?_, hbefore, fun r' hr' => ?_, ?_⟩, Or.inl rfl, fun h => ⟨h, rfl⟩⟩
      · rw [hunread, List.append_assoc]
      · rcases List.mem_append.mp hr' with hr' | hr'
        · exact hafter r' hr'
        · rw [List.mem_singleton.mp hr']
          exact hfits hchanging
      · cases after with
        | nil => exact ⟨by rw [htells, htold, hchanging]; rfl, hchanging⟩
        | cons r' rest => exact htold

theorem Phase.moves (h : l.Phase stale awaiting unseen known) (hsettles : l.Settles) (hm : l.Moves l') :
    l'.Phase stale awaiting unseen known := by
  have hconfig : l'.config = l.config := by cases hm <;> rfl
  cases h with
  | steady h hknown => exact .steady (h.moves hsettles hm) (hknown.trans hconfig.symm)
  | awaited hawaiting before after h =>
    obtain ⟨before', after', h', -, -⟩ := h.moves hsettles hm
    exact .awaited hawaiting before' after' h'
  | unknown hunseen before after h husable hpublished =>
    obtain ⟨before', after', h', hbefore, hkept⟩ := h.moves hsettles hm
    refine .unknown hunseen before' after' h' ?_ fun hchanging => ?_
    · rcases hbefore with rfl | ⟨r, rfl, hr, hchanging⟩
      · exact husable
      · exact husable.concat (hr ▸ hpublished hchanging)
    · obtain ⟨hchanging, hsame⟩ := hkept hchanging
      exact hsame ▸ hpublished hchanging

/-- What a report that the host reads means to it: it fits unless it is stale, or it waits for the one that
    tells of the change. -/
inductive Arrival (stale : U16 → Bool) (awaiting unseen : Bool) (known : PinConfig) (isStale tells : Bool)
    (shown : PinConfig) (l : Line) : Prop where
  | steady (h : l.Steady stale) (hfits : isStale = false → shown.Fits l.config)
      (hknown : tells = false → known = l.config)
  | awaited (htells : tells = false) (hawaiting : awaiting = true) (before after : List Sent)
      (h : l.Changing before after)
  | unknown (htells : tells = false) (h : l.Phase stale awaiting unseen known)
      (hfits : isStale = false → shown.Fits known)

/-- The host reads the oldest report. -/
theorem Phase.read (h : l.Phase stale awaiting unseen known) (hunread : l.unread = r :: reports)
    (hstale : stale r.status.seq = true → stale' = stale) :
    { l with unread := reports }.Arrival stale' awaiting unseen known (stale r.status.seq) r.tells
      r.published := by
  -- The report is one of those before the telling one, or it is that one.
  have hpop : ∀ {before after : List Sent}, l.Changing before after →
      (∃ rest, before = r :: rest ∧ r.tells = false ∧ { l with unread := reports }.Changing rest after) ∨
        { l with unread := reports }.Steady stale' ∧ r.published.Fits l.config ∧ r.tells = true := by
    intro before after h
    obtain ⟨heq, hbefore, hafter, htold⟩ := h
    rw [hunread] at heq
    cases before with
    | nil =>
      rw [List.nil_append] at heq
      subst heq
      refine Or.inr ⟨⟨htold.2, ?_⟩, hafter r List.mem_cons_self, htold.1⟩
      exact Usable.of_fits fun r' hr' => hafter r' (List.mem_cons_of_mem r hr')
    | cons r' rest =>
      obtain ⟨rfl, rfl⟩ := List.cons.inj heq
      exact Or.inl ⟨rest, rfl, hbefore r List.mem_cons_self,
        ⟨rfl, fun r' hr' => hbefore r' (List.mem_cons_of_mem r hr'), hafter, htold⟩⟩
  cases h with
  | steady h hknown =>
    have husable := h.usable
    rw [hunread] at husable
    obtain ⟨husable, hfits⟩ := husable.tail hstale
    exact .steady ⟨h.settled, husable⟩ hfits fun _ => hknown
  | awaited hawaiting before after h =>
    rcases hpop h with ⟨rest, -, htells, h'⟩ | ⟨h', hfits, htells⟩
    · exact .awaited htells hawaiting rest after h'
    · exact .steady h' (fun _ => hfits) fun hnot => by rw [htells] at hnot; cases hnot
  | unknown hunseen before after h husable hpublished =>
    rcases hpop h with ⟨rest, rfl, htells, h'⟩ | ⟨h', hfits, htells⟩
    · obtain ⟨husable, hfits⟩ := husable.tail hstale
      exact .unknown htells (.unknown hunseen rest after h' husable hpublished) hfits
    · exact .steady h' (fun _ => hfits) fun hnot => by rw [htells] at hnot; cases hnot

/-- A report that tells of no change leaves what the host knows. -/
theorem Arrival.phase {isStale : Bool} {shown : PinConfig}
    (h : l.Arrival stale awaiting unseen known isStale false shown) :
    l.Phase stale awaiting unseen known ∧ (isStale = false → awaiting = false → shown.Fits known) := by
  cases h with
  | steady h hfits hknown =>
    refine ⟨.steady h (hknown rfl), fun hfresh _ => ?_⟩
    rw [hknown rfl]
    exact hfits hfresh
  | awaited _ hawaiting before after h =>
    refine ⟨.awaited hawaiting before after h, fun _ hnot => ?_⟩
    rw [hawaiting] at hnot
    cases hnot
  | unknown _ h hfits => exact ⟨h, fun hfresh _ => hfits hfresh⟩

/-- After a report that tells of a change nothing changes any more. -/
theorem Arrival.told {isStale : Bool} {shown : PinConfig}
    (h : l.Arrival stale awaiting unseen known isStale true shown) :
    l.Steady stale ∧ (isStale = false → shown.Fits l.config) := by
  cases h with
  | steady h hfits _ => exact ⟨h, hfits⟩
  | awaited htells => cases htells
  | unknown htells => cases htells

/-- A Set, while no report about an earlier change is on its way. -/
theorem Phase.set (h : l.Phase stale awaiting false known) (hsettles : l.Settles) (hquiet : l.quiet = true)
    (config : PinConfig) : { l with changing := true, config }.Phase stale awaiting true known := by
  obtain ⟨htelling, htells⟩ : l.telling = false ∧ ∀ r ∈ l.unread, r.tells = false := by
    simpa [quiet] using hquiet
  have hchanging : { l with changing := true, config }.Changing l.unread [] :=
    ⟨(List.append_nil _).symm, htells, List.forall_mem_nil _, htelling⟩
  cases h with
  | steady h hknown =>
    subst hknown
    exact .unknown rfl l.unread [] hchanging h.usable fun _ => hsettles h.settled
  | awaited hawaiting before after h => exact .awaited hawaiting l.unread [] hchanging
  | unknown hunseen => cases hunseen

theorem Phase.unread (h : l.Phase stale awaiting false known) : l.Phase stale awaiting true known := by
  cases h with
  | steady h hknown => exact .steady h hknown
  | awaited hawaiting before after h => exact .awaited hawaiting before after h
  | unknown hunseen => cases hunseen

/-- When the host has read back what it wrote, it awaits the report that tells of it. -/
theorem Phase.wrote (h : l.Phase stale awaiting unseen known) (unseen' : Bool) :
    l.Phase stale true unseen' l.config := by
  cases h with
  | steady h _ => exact .steady h rfl
  | awaited _ before after h => exact .awaited rfl before after h
  | unknown _ before after h => exact .awaited rfl before after h

/-- While a change is under way, it has still to settle or a report about it is on its way. -/
theorem Changing.not_quiet (h : l.Changing before after) (hchanging : l.changing = false) :
    l.quiet = false := by
  refine Bool.eq_false_iff.mpr fun hquiet => ?_
  obtain ⟨htelling, htells⟩ : l.telling = false ∧ ∀ r ∈ l.unread, r.tells = false := by
    simpa [quiet] using hquiet
  have htold := h.told
  cases after with
  | nil =>
    rw [Told, hchanging, htelling] at htold
    cases htold
  | cons r rest =>
    have hr := htells r (h.unread ▸ List.mem_append_right before List.mem_cons_self)
    rw [htold.1] at hr
    cases hr

/-- When no report about a change is on its way and none has to come, the host knows the configuration it
    reads, and unless it awaits a report it knew it before. -/
theorem Phase.readConfig (h : l.Phase stale awaiting unseen known)
    (hseen : unseen = true → l.changing = false ∧ l.quiet = true) :
    l.Phase stale awaiting false l.config ∧ (awaiting = false → known = l.config) := by
  cases h with
  | steady h hknown => exact ⟨.steady h rfl, fun _ => hknown⟩
  | awaited hawaiting before after h =>
    refine ⟨.awaited hawaiting before after h, fun hnot => ?_⟩
    rw [hawaiting] at hnot
    cases hnot
  | unknown hunseen before after h =>
    obtain ⟨hchanging, hquiet⟩ := hseen hunseen
    rw [h.not_quiet hchanging] at hquiet
    cases hquiet

end Line

end Hidpin.System

namespace Hidpin.Firmware.Device
open Engine Hidpin.System

/-! ### The device -/

/-- The line from a device to a host that has read so many of its reports. -/
def line (d : Device) (next : ℕ) : Line where
  unread := d.sent.drop next
  changing := d.engine.configChanged
  telling := hasFlag d.engine.pendingReasons reasonConfigChanged
  published := d.published
  config := d.engine.config

/-- What every operation keeps: the reports are numbered, an answer has the seq of the latest one, and each
    monitors the inputs of what was published. -/
structure Consistent (d : Device) : Prop where
  inv : d.Inv
  numbered : d.Numbered
  settles : (d.line 0).Settles
  answered : (if d.engine.hasSent then d.engine.lastSeq else 0) = BitVec.ofNat 16 (d.sent.length - 1)
  monitored : ∀ r ∈ d.sent, r.status.monitored = inputMask r.published

/-- An operation but a Set moves the line. -/
theorem moves_step (d : Device) {op : Op} (hop : ∀ payload nowUs, op ≠ .setPinConfig payload nowUs)
    {next : ℕ} (hnext : next ≤ d.sent.length) : (d.line next).Moves ((d.step op).line next) := by
  have hconfig : (d.step op).engine.config = d.engine.config :=
    congrArg (fun f => PinConfigReport.config f.2) (d.features_step hop)
  have hchanges : changesConfig (d, op) = false := by
    cases op with
    | setPinConfig payload nowUs => exact absurd rfl (hop payload nowUs)
    | _ => rfl
  have hsent := sent_step d op
  have hpending := pendingReasons_step d op
  have hchanged := configChanged_step d op
  rw [hchanges, Bool.or_false] at hchanged
  rcases hcommitted : d.committed op with _ | r
  · rw [hcommitted, Option.toList_none, List.append_nil] at hsent
    rw [handsOver, hcommitted] at hpending
    have htelling : hasFlag (d.step op).engine.pendingReasons reasonConfigChanged =
        (hasFlag d.engine.pendingReasons reasonConfigChanged
          || (finishesSettle (d, op) && d.engine.configChanged)) := by
      rw [hpending, ← (hasFlag_addedReasons d op).2.2.2.2.1]
      exact hasFlag_or _ _ _
    cases hsettle : finishesSettle (d, op) with
    | false =>
      have hpublished : (d.step op).published = d.published := by
        cases op with
        | task nowUs inputs => exact if_neg (Bool.eq_false_iff.mp hsettle)
        | _ => rfl
      rw [hsettle] at hchanged htelling
      simp only [line, hsent, hchanged, htelling, hpublished, hconfig, Bool.not_false, Bool.true_and,
        Bool.false_and, Bool.or_false]
      exact .idle
    | true =>
      have hpublished : (d.step op).published = d.engine.config := by
        cases op with
        | task nowUs inputs => exact if_pos hsettle
        | _ => cases hsettle
      rw [hsettle] at hchanged htelling
      simp only [line, hsent, hchanged, htelling, hpublished, hconfig, Bool.not_true, Bool.false_and,
        Bool.true_and]
      exact .settle
  · rw [hcommitted, Option.toList_some] at hsent
    rw [handsOver, hcommitted] at hpending
    obtain ⟨nowUs, accepted, rfl, rfl, -, -⟩ := committed_eq_some hcommitted
    have htelling : hasFlag (d.step (.send nowUs accepted)).engine.pendingReasons
        reasonConfigChanged = false := by
      rw [hpending]
      exact hasFlag_zero _
    have hlevel : hasFlag reasonLevelChanged reasonConfigChanged = false := by decide
    have hline : (d.step (.send nowUs accepted)).line next =
        { d.line next with
          unread := d.sent.drop next ++ [⟨nowUs, d.engine.report nowUs, d.published⟩]
          telling := false } := by
      simp only [line, hsent, hchanged, htelling, hconfig, List.drop_append_of_le_length hnext]
      rfl
    rw [hline]
    refine .report _ ?_ rfl
    rw [Sent.tells, report, hasFlag_reportReason, hlevel, Bool.and_false, Bool.or_false]
    rfl

/-- A Set is rejected, or its configuration is valid and the line has it now. -/
inductive SetEffect (d d' : Device) (payload : List U8) (next : ℕ) : Prop where
  | rejected (hline : d'.line next = d.line next)
  | accepted (hvalid : (payloadConfig payload).Valid d.engine.info.available)
    (hline : d'.line next = d.line next ∨
      d'.line next = { d.line next with changing := true, config := payloadConfig payload })

theorem setEffect (d : Device) (payload : List U8) (nowUs : U64) (next : ℕ) :
    SetEffect d (d.step (.setPinConfig payload nowUs)) payload next := by
  rcases d.engine.setPinConfig_cases payload nowUs with ⟨_, heq⟩ | ⟨config, haccepted, ha⟩
  · refine .rejected ?_
    simp only [line, step, heq, recordResult]
  · obtain ⟨⟨-, hvalid⟩, rfl⟩ := acceptedConfig_eq_some.mp haccepted
    refine .accepted hvalid ?_
    by_cases hsame : payloadConfig payload = d.engine.config
    · refine Or.inl ?_
      simp [line, step, ha.config, ha.configChanged, ha.pendingReasons, hsame]
    · refine Or.inr ?_
      simp [line, step, ha.config, ha.configChanged, ha.pendingReasons, hsame]

/-- Every operation keeps what ties the fields together. -/
theorem consistent_step (d : Device) (op : Op) (h : d.Consistent) : (d.step op).Consistent := by
  have hsent := sent_step d op
  have hcounters := counters_step d op
  have hmonitored : d.engine.monitored = inputMask d.published := h.inv.monitored
  refine ⟨step_inv d op h.inv, numbered_step d op h.numbered, ?_, ?_, fun r hr => ?_⟩
  · by_cases hop : ∃ payload nowUs, op = .setPinConfig payload nowUs
    · obtain ⟨payload, nowUs, rfl⟩ := hop
      cases setEffect d payload nowUs 0 with
      | rejected hline =>
        rw [hline]
        exact h.settles
      | accepted _ hline =>
        rcases hline with hline | hline
        · rw [hline]
          exact h.settles
        · rw [hline]
          exact fun hchanging => by cases hchanging
    · have hmoves := d.moves_step (fun payload nowUs heq => hop ⟨payload, nowUs, heq⟩)
        (Nat.zero_le d.sent.length)
      exact h.settles.moves hmoves
  · rcases hcommitted : d.committed op with _ | r
    · rw [hcommitted, Option.toList_none, List.append_nil] at hsent
      rw [handsOver, hcommitted] at hcounters
      simp only [counters, Option.isSome_none, Bool.false_eq_true, if_false, Prod.mk.injEq] at hcounters
      rw [hsent, hcounters.2.1, hcounters.2.2]
      exact h.answered
    · rw [hcommitted, Option.toList_some] at hsent
      rw [handsOver, hcommitted] at hcounters
      simp only [counters, Option.isSome_some, if_true, Prod.mk.injEq] at hcounters
      rw [hsent, hcounters.2.1, hcounters.2.2, List.length_append, h.numbered.nextSeq]
      rfl
  · rw [hsent] at hr
    rcases List.mem_append.mp hr with hr | hr
    · exact h.monitored r hr
    · obtain ⟨nowUs, accepted, -, rfl, -, -⟩ := committed_eq_some (Option.mem_toList.mp hr)
      exact hmonitored

theorem consistent_start (info : DeviceInfo) (startUs : U64) : (start info startUs).Consistent where
  inv := inv_init info startUs
  numbered := numbered_run info startUs []
  settles _ n hn := by
    have hblank : modeIsInput (blankConfig.mode n) = false := rfl
    rw [show ((start info startUs).line _).published = blankConfig from rfl, hblank] at hn
    cases hn
  answered := by
    rw [start, init_eq]
    rfl
  monitored r hr := by cases hr

theorem changing_start (info : DeviceInfo) (startUs : U64) (next : ℕ) :
    ((start info startUs).line next).changing = false := by
  rw [line, start, init_eq]
  rfl

end Hidpin.Firmware.Device
