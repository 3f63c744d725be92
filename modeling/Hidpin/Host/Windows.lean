import Hidpin.Host.Clock
import Mathlib

/-! The samples behind a device clock. The two samples it keeps are the closest ones of the current window
    and of the one before. A window ends when a sample arrives 30 s or more after its first one, however long
    that takes, so after a gap the window before can be of any age. -/

namespace Hidpin.Host

/-- When a sample was received, in nanoseconds. -/
def receivedAt (s : Sample) : ℕ := s.1

/-- The host-minus-device difference of a sample, in nanoseconds. -/
def difference (s : Sample) : ℤ := (s.1 : ℤ) - (s.2.toNat : ℤ) * 1000

theorem closer_iff (a b : Sample) : closer a b = true ↔ difference a < difference b := by
  rw [closer, decide_eq_true_iff, difference, difference]
  omega

/-- The samples of the current window and of the one before, oldest first. -/
structure Windows where
  prev : List Sample
  cur : List Sample
  deriving DecidableEq

namespace Windows

/-- No samples. -/
def empty : Windows := ⟨[], []⟩

/-- A sample less than 30 s after the first one of the window belongs to it; any other begins the next. -/
def add (w : Windows) (s : Sample) : Windows :=
  match w.cur with
  | [] => ⟨[], [s]⟩
  | first :: _ =>
    if receivedAt s - receivedAt first < clockWindow then { w with cur := w.cur ++ [s] } else ⟨w.cur, [s]⟩

/-- The windows that a sequence of samples makes. -/
def of (samples : List Sample) : Windows := samples.foldl add empty

theorem of_concat (samples : List Sample) (s : Sample) : of (samples ++ [s]) = (of samples).add s := by
  rw [of, List.foldl_append, List.foldl_cons, List.foldl_nil, of]

/-- The windows are the last samples; each one lies within 30 s. -/
structure Fits (w : Windows) (samples : List Sample) : Prop where
  suffix : w.prev ++ w.cur <:+ samples
  nonempty : samples ≠ [] → w.cur ≠ []
  cur : ∀ first ∈ w.cur.head?, ∀ s ∈ w.cur, receivedAt s - receivedAt first < clockWindow
  prev : ∀ first ∈ w.prev.head?, ∀ s ∈ w.prev, receivedAt s - receivedAt first < clockWindow

theorem fits_add {w : Windows} {samples : List Sample} (h : w.Fits samples) (s : Sample) :
    (w.add s).Fits (samples ++ [s]) := by
  have hone : ∀ first ∈ [s].head?, ∀ s' ∈ [s], receivedAt s' - receivedAt first < clockWindow := by
    intro first hfirst s' hs'
    obtain rfl := Option.some.inj hfirst
    rw [List.mem_singleton.mp hs', Nat.sub_self]
    decide
  obtain ⟨prev, _ | ⟨first, cur⟩⟩ := w
  · refine ⟨List.suffix_append _ _, fun _ => by simp [add], hone, fun f hf => (by cases hf)⟩
  · by_cases hnear : receivedAt s - receivedAt first < clockWindow
    · simp only [add, if_pos hnear]
      obtain ⟨early, hearly⟩ := h.suffix
      refine ⟨⟨early, ?_⟩, fun _ => by simp, fun f hf s' hs' => ?_, h.prev⟩
      · rw [← List.append_assoc, ← List.append_assoc, List.append_assoc early, hearly]
      · obtain rfl := Option.some.inj hf
        rcases List.mem_append.mp hs' with hs' | hs'
        · exact h.cur first rfl s' hs'
        · rw [List.mem_singleton.mp hs']
          exact hnear
    · simp only [add, if_neg hnear]
      obtain ⟨early, hearly⟩ := h.suffix
      refine ⟨⟨early ++ prev, ?_⟩, fun _ => by simp, hone, h.cur⟩
      rw [← hearly]
      simp

theorem fits_of (samples : List Sample) : (of samples).Fits samples := by
  induction samples using List.reverseRecOn with
  | nil =>
    exact ⟨List.suffix_refl _, fun h => absurd rfl h, fun _ hf => (by cases hf), fun _ hf => (by cases hf)⟩
  | append_singleton samples s ih =>
    rw [of_concat]
    exact fits_add ih s

end Windows

/-- The first closest sample of two lists one after the other. -/
theorem argmin_append (l l' : List Sample) :
    (l ++ l').argmin difference = match l.argmin difference, l'.argmin difference with
      | some a, some b => if difference b < difference a then some b else some a
      | some a, none => some a
      | none, o => o := by
  induction l' using List.reverseRecOn with
  | nil => cases h : l.argmin difference <;> simp [h]
  | append_singleton l' s ih =>
    rw [← List.append_assoc, List.argmin_concat, ih, List.argmin_concat]
    rcases l.argmin difference with _ | a <;> rcases l'.argmin difference with _ | b
    · rfl
    · by_cases hb : difference s < difference b <;> simp [hb]
    · by_cases ha : difference s < difference a <;> simp [ha]
    · by_cases hab : difference b < difference a <;> by_cases hb : difference s < difference b <;>
        by_cases ha : difference s < difference a <;> simp [hab, hb, ha] <;> omega

namespace DeviceClock

/-- The clock after a sequence of samples. -/
def after (samples : List Sample) : DeviceClock := samples.foldl (fun c s => c.add s.1 s.2) empty

/-- The clock keeps the closest sample of each window. -/
structure Keeps (c : DeviceClock) (w : Windows) : Prop where
  cur : c.cur = w.cur.argmin difference
  prev : c.prev = w.prev.argmin difference
  curStart : c.curStart = w.cur.head?.map Prod.fst

theorem keeps_add {c : DeviceClock} {w : Windows} (h : c.Keeps w) (s : Sample) :
    (c.add s.1 s.2).Keeps (w.add s) := by
  obtain ⟨prev, _ | ⟨first, cur⟩⟩ := w
  · have hcur : c.cur = none := h.cur
    rw [add, hcur]
    exact ⟨rfl, rfl, rfl⟩
  · obtain ⟨best, hbest⟩ : ∃ best, (first :: cur).argmin difference = some best :=
      Option.ne_none_iff_exists'.mp (by simp [List.argmin_eq_none])
    have hcur : c.cur = some best := h.cur.trans hbest
    have hstart : c.curStart = some first.1 := h.curStart
    simp only [add, Windows.add, hcur, hstart]
    by_cases hnear : receivedAt s - receivedAt first < clockWindow
    · have hnear' : s.1 - first.1 < clockWindow := hnear
      rw [if_pos hnear, if_pos hnear']
      split_ifs with hcloser
      · refine ⟨?_, h.prev, rfl⟩
        rw [List.argmin_concat, hbest]
        exact (if_pos ((closer_iff s best).mp hcloser)).symm
      · refine ⟨?_, h.prev, hstart⟩
        rw [List.argmin_concat, hbest]
        exact hcur.trans (if_neg fun hlt => hcloser ((closer_iff s best).mpr hlt)).symm
    · have hnear' : ¬ s.1 - first.1 < clockWindow := hnear
      rw [if_neg hnear, if_neg hnear']
      exact ⟨rfl, hbest.symm, rfl⟩

theorem keeps_after (samples : List Sample) : (after samples).Keeps (Windows.of samples) := by
  induction samples using List.reverseRecOn with
  | nil => exact ⟨rfl, rfl, rfl⟩
  | append_singleton samples s ih =>
    rw [Windows.of_concat, after, List.foldl_append, List.foldl_cons, List.foldl_nil]
    exact keeps_add ih s

/-- A conversion goes through the first closest sample of both windows. -/
theorem instantAt_keeps {c : DeviceClock} {w : Windows} (h : c.Keeps w) {used : Sample}
    (hused : (w.cur ++ w.prev).argmin difference = some used) (hne : w.cur ≠ []) (deviceUs : U64) :
    c.instantAt deviceUs = some (offset used.1 ((deviceUs.toNat : ℤ) - (used.2.toNat : ℤ))) := by
  obtain ⟨best, hbest⟩ : ∃ best, w.cur.argmin difference = some best :=
    Option.ne_none_iff_exists'.mp (by simpa [List.argmin_eq_none] using hne)
  rw [argmin_append, hbest] at hused
  have hcur : c.cur = some best := h.cur.trans hbest
  have hprev := h.prev
  simp only [instantAt, hcur]
  cases hp : w.prev.argmin difference with
  | none =>
    rw [hp] at hused hprev
    obtain rfl := Option.some.inj hused
    rw [hprev]
  | some p =>
    rw [hp] at hused hprev
    simp only [hprev]
    by_cases hcloser : closer p best = true
    · obtain rfl := Option.some.inj ((if_pos ((closer_iff p best).mp hcloser)).symm.trans hused)
      rw [if_pos hcloser]
    · obtain rfl :=
        Option.some.inj ((if_neg fun hlt => hcloser ((closer_iff p best).mpr hlt)).symm.trans hused)
      rw [if_neg hcloser]

/-- How long ago a sample may have been received that a conversion goes through: three windows. -/
def trusted : ℕ := 3 * clockWindow

/-- A sample of the window before that is older is not the closest: one of the current window is as close, or
    one that is not as old is closer. -/
def OldBeaten (w : Windows) (last : Sample) : Prop :=
  ∀ s ∈ w.prev, trusted < receivedAt last - receivedAt s →
    (∃ s' ∈ w.cur, difference s' ≤ difference s) ∨
      ∃ s' ∈ w.prev, receivedAt last - receivedAt s' ≤ trusted ∧ difference s' < difference s

instance (w : Windows) (last : Sample) : Decidable (OldBeaten w last) :=
  inferInstanceAs (Decidable (∀ s ∈ w.prev, _ → _))

/-- Samples received in order. -/
def Received (samples : List Sample) : Prop := samples.Pairwise fun a b => receivedAt a ≤ receivedAt b

instance (samples : List Sample) : Decidable (Received samples) :=
  inferInstanceAs (Decidable (List.Pairwise _ _))

/-- Of samples that are equally close, the first one received is chosen. -/
theorem argmin_first {l : List Sample} {m : Sample} (hord : Received l) (hm : l.argmin difference = some m) :
    ∀ s ∈ l, difference s ≤ difference m → receivedAt m ≤ receivedAt s := by
  induction l using List.reverseRecOn generalizing m with
  | nil => cases hm
  | append_singleton l last ih =>
    obtain ⟨hl, -, hlast⟩ := List.pairwise_append.mp hord
    rw [List.argmin_concat] at hm
    intro s hs hle
    rcases hc : l.argmin difference with _ | c
    · rw [hc] at hm
      obtain rfl := Option.some.inj hm
      rw [List.argmin_eq_none.mp hc, List.nil_append, List.mem_singleton] at hs
      rw [hs]
    · rw [hc] at hm
      have hcs : ∀ s ∈ l, difference c ≤ difference s := fun s hs => List.le_of_mem_argmin hs hc
      rcases List.mem_append.mp hs with hs | hs <;> simp only at hm <;> split_ifs at hm with hlt
      · obtain rfl := Option.some.inj hm
        have := hcs s hs
        omega
      · obtain rfl := Option.some.inj hm
        exact ih hl hc s hs hle
      · obtain rfl := Option.some.inj hm
        rw [List.mem_singleton.mp hs]
      · obtain rfl := Option.some.inj hm
        exact hlast c (List.argmin_mem hc) s hs

section Age
variable {samples : List Sample} {last : Sample} (hord : Received (samples ++ [last])) {w : Windows}
  (hfits : w.Fits (samples ++ [last]))
include hord hfits

theorem window_received : Received w.prev ∧ Received w.cur := by
  have h := List.pairwise_append.mp (List.Pairwise.sublist hfits.suffix.sublist hord)
  exact ⟨h.1, h.2.1⟩

/-- The last sample is in the current window, so no sample of that window is old. -/
theorem cur_recent {s : Sample} (hs : s ∈ w.cur) : receivedAt last - receivedAt s < clockWindow := by
  have hne := hfits.nonempty (by simp)
  have hlast : last ∈ w.cur := by
    obtain ⟨early, hearly⟩ := hfits.suffix
    have hget := congrArg List.getLast? hearly
    rw [List.getLast?_concat, ← List.append_assoc, List.getLast?_append_of_ne_nil _ hne] at hget
    exact List.mem_of_getLast? hget
  obtain ⟨first, rest, hcur⟩ := List.exists_cons_of_ne_nil hne
  have hfirst : receivedAt first ≤ receivedAt s := by
    have hsorted := (window_received hord hfits).2
    rw [hcur] at hsorted hs
    rcases List.mem_cons.mp hs with rfl | hs
    · exact le_refl _
    · exact (List.pairwise_cons.mp hsorted).1 s hs
  have hnear := hfits.cur first (by rw [hcur]; rfl) last hlast
  omega

/-- The closest sample is recent exactly when the old ones are beaten. -/
theorem recent_iff {used : Sample} (hused : (w.cur ++ w.prev).argmin difference = some used) :
    receivedAt last - receivedAt used ≤ trusted ↔ OldBeaten w last := by
  have hmin : ∀ s ∈ w.cur ++ w.prev, difference used ≤ difference s :=
    fun s hs => List.le_of_mem_argmin hs hused
  have hlong : clockWindow ≤ trusted := by decide
  obtain ⟨c, hc⟩ : ∃ c, w.cur.argmin difference = some c :=
    Option.ne_none_iff_exists'.mp (by simpa [List.argmin_eq_none] using hfits.nonempty (by simp))
  have hcur := cur_recent hord hfits (List.argmin_mem hc)
  have hcmin : ∀ s ∈ w.cur, difference c ≤ difference s := fun s hs => List.le_of_mem_argmin hs hc
  rw [argmin_append, hc] at hused
  rcases hp : w.prev.argmin difference with _ | p
  · rw [hp] at hused
    obtain rfl := Option.some.inj hused
    refine iff_of_true (by omega) fun s hs _ => ?_
    rw [List.argmin_eq_none.mp hp] at hs
    cases hs
  · have hpmem := List.argmin_mem hp
    have hpmin : ∀ s ∈ w.prev, difference p ≤ difference s := fun s hs => List.le_of_mem_argmin hs hp
    simp only [hp] at hused
    split_ifs at hused with hpc
    · obtain rfl := Option.some.inj hused
      constructor
      · intro hrecent s hs hold
        rcases (hpmin s hs).lt_or_eq with hlt | heq
        · exact Or.inr ⟨p, hpmem, hrecent, hlt⟩
        · -- of equally close samples the first one is used, so `s` is not older
          have hle := argmin_first (window_received hord hfits).1 hp s hs heq.symm.le
          omega
      · intro hbeaten
        by_contra hold
        rcases hbeaten p hpmem (by omega) with ⟨s', hs', hle⟩ | ⟨s', hs', _, hlt⟩
        · have := hcmin s' hs'
          omega
        · have := hpmin s' hs'
          omega
    · obtain rfl := Option.some.inj hused
      exact iff_of_true (by omega) fun s hs _ =>
        Or.inl ⟨c, List.argmin_mem hc, hmin s (List.mem_append_right _ hs)⟩

/-- Samples at most 30 s apart leave none of the window before old. -/
theorem prev_recent
    (hgaps : (samples ++ [last]).IsChain fun a b => receivedAt b - receivedAt a ≤ clockWindow)
    {s : Sample} (hs : s ∈ w.prev) : receivedAt last - receivedAt s ≤ trusted := by
  have hne := hfits.nonempty (by simp)
  obtain ⟨first, rest, hcur⟩ := List.exists_cons_of_ne_nil hne
  obtain ⟨start, before, hprev⟩ := List.exists_cons_of_ne_nil (List.ne_nil_of_mem hs)
  have hchain := List.isChain_append.mp (hgaps.suffix hfits.suffix)
  obtain ⟨l, hl⟩ : ∃ l, w.prev.getLast? = some l := by rw [hprev]; exact ⟨_, List.getLast?_cons⟩
  have hgap := hchain.2.2 l hl first (by rw [hcur]; rfl)
  have hlate := cur_recent hord hfits (show first ∈ w.cur by simp [hcur])
  have hspan := hfits.prev start (by rw [hprev]; rfl) l (List.mem_of_getLast? hl)
  have hstart : receivedAt start ≤ receivedAt s := by
    have hsorted := (window_received hord hfits).1
    rw [hprev] at hsorted hs
    rcases List.mem_cons.mp hs with rfl | hs
    · exact le_refl _
    · exact (List.pairwise_cons.mp hsorted).1 s hs
  rw [trusted]
  omega

end Age

/-- A conversion after the last sample goes through the closest sample of the current window and the one
    before, the first one of a window when several are equally close. That sample is at most 90 s old exactly
    when no older one of the window before is the closest, as is the case when the samples are at most 30 s
    apart. -/
theorem conversion_sample (samples : List Sample) (last : Sample) (hord : Received (samples ++ [last])) :
    let w := Windows.of (samples ++ [last])
    ∃ used, (w.cur ++ w.prev).argmin difference = some used ∧
      (∀ deviceUs, (after (samples ++ [last])).instantAt deviceUs =
        some (offset used.1 ((deviceUs.toNat : ℤ) - (used.2.toNat : ℤ)))) ∧
      (receivedAt last - receivedAt used ≤ trusted ↔ OldBeaten w last) ∧
      ((samples ++ [last]).IsChain (fun a b => receivedAt b - receivedAt a ≤ clockWindow) →
        receivedAt last - receivedAt used ≤ trusted) := by
  intro w
  have hfits := Windows.fits_of (samples ++ [last])
  have hne := hfits.nonempty (by simp)
  obtain ⟨used, hused⟩ : ∃ used, (w.cur ++ w.prev).argmin difference = some used :=
    Option.ne_none_iff_exists'.mp (by
      rw [Ne, List.argmin_eq_none, List.append_eq_nil_iff]
      exact fun h => hne h.1)
  refine ⟨used, hused, instantAt_keeps (keeps_after _) hused hne, recent_iff hord hfits hused,
    fun hgaps => ?_⟩
  rcases List.mem_append.mp (List.argmin_mem hused) with hcur | hprev
  · have hrecent := cur_recent hord hfits hcur
    rw [trusted]
    omega
  · exact prev_recent hord hfits hgaps hprev

/-- Samples of reports that are 40 ms late but for the first, which is on time, with the gaps between them in
    seconds. -/
def lateSamples (gaps : List ℕ) : List Sample :=
  (0, 0) :: (gaps.scanl (· + ·) 0).tail.map fun t =>
    (t * 1000000000 + 40000000, BitVec.ofNat 64 (t * 1000000))

/-- Every 20 s: the sample on time is forgotten by the fifth report. -/
theorem conversion_sample_regular :
    ∃ used, (after (lateSamples [20, 20, 20] ++ [(80040000000, 80000000)])).instantAt 80000000 =
      some (offset used.1 (80000000 - (used.2.toNat : ℤ))) ∧
      receivedAt (80040000000, 80000000) - receivedAt used ≤ trusted := by
  obtain ⟨used, -, hconvert, -, hrecent⟩ :=
    conversion_sample (lateSamples [20, 20, 20]) (80040000000, 80000000) (by decide +kernel)
  exact ⟨used, hconvert 80000000, hrecent (by decide +kernel)⟩

/-- After an hour without a report the sample on time is used, an hour old. -/
theorem old_sample_used : ¬ ∀ (samples : List Sample) (last : Sample), Received (samples ++ [last]) →
    ∃ used ∈ samples ++ [last], receivedAt last - receivedAt used ≤ trusted ∧
      ∀ deviceUs, (after (samples ++ [last])).instantAt deviceUs =
        some (offset used.1 ((deviceUs.toNat : ℤ) - (used.2.toNat : ℤ))) := by
  intro h
  obtain ⟨used, hused, hrecent, hconvert⟩ := h [(0, 0)] (3600040000000, 3600000000) (by decide +kernel)
  rcases List.mem_pair.mp hused with rfl | rfl
  · exact absurd hrecent (by decide)
  · exact absurd (hconvert 3600000000) (by decide +kernel)

end DeviceClock

end Hidpin.Host
